import Mathlib.Order.Bounds.Defs
import SourceOutline.Proofs.Text.Boundary

/-!
# The characters within a number of bytes

A byte offset need not be a boundary of a text, and may be past its end. What lies whole in front of
it is `Text.within`, and this ends at the **last boundary that is not past the offset**
(`isGreatest_width_within`). How many characters there are depends on the text up to the offset only
(`charsWithin_append_of_le`), and grows with the offset (`charsWithin_le_charsWithin`).
-/

namespace SourceOutline.Text

variable {bytes : Nat}

theorem charsWithin_le_length (bytes : Nat) (text : List Char) :
    charsWithin bytes text ≤ text.length := by
  induction text generalizing bytes with
  | nil => exact Nat.le_refl 0
  | cons c text ih =>
    rw [charsWithin, List.length_cons]
    split
    · exact Nat.succ_le_succ (ih _)
    · exact Nat.zero_le _

/-- Fewer bytes than a first part has hold fewer characters. -/
theorem charsWithin_lt_length {s : List Char} (h : bytes < width s) (t : List Char) :
    charsWithin bytes (s ++ t) < s.length := by
  induction s generalizing bytes with
  | nil => exact absurd h (Nat.not_lt_zero bytes)
  | cons c s ih =>
    rw [List.cons_append, charsWithin, List.length_cons]
    split
    next hc =>
      have hrest : bytes - c.utf8Size < width s := by
        rw [width_cons] at h
        omega
      exact Nat.succ_lt_succ (ih hrest)
    next => exact Nat.succ_pos _

/-- No more of a text counts than what the bytes reach. -/
theorem charsWithin_append_of_le {s : List Char} (h : bytes ≤ width s) (t : List Char) :
    charsWithin bytes (s ++ t) = charsWithin bytes s := by
  induction s generalizing bytes with
  | nil =>
    obtain rfl := Nat.le_zero.mp h
    rw [charsWithin_zero, charsWithin_zero]
  | cons c s ih =>
    have hrest : bytes - c.utf8Size ≤ width s := by
      rw [width_cons] at h
      omega
    rw [List.cons_append, charsWithin, charsWithin, ih hrest]

theorem charsWithin_le_charsWithin {more : Nat} (h : bytes ≤ more) (text : List Char) :
    charsWithin bytes text ≤ charsWithin more text := by
  induction text generalizing bytes more with
  | nil => exact Nat.le_refl 0
  | cons c text ih =>
    rw [charsWithin, charsWithin]
    split
    · rw [if_pos (by omega)]
      exact Nat.succ_le_succ (ih (by omega))
    · exact Nat.zero_le _

/-! ### The part in front of an offset -/

/-- The first part of a text that lies whole within the given number of bytes. -/
def within (bytes : Nat) (text : List Char) : List Char :=
  text.take (charsWithin bytes text)

theorem length_within (bytes : Nat) (text : List Char) :
    (within bytes text).length = charsWithin bytes text := by
  rw [within, List.length_take, Nat.min_eq_left (charsWithin_le_length bytes text)]

theorem within_append_drop (bytes : Nat) (text : List Char) :
    within bytes text ++ text.drop (charsWithin bytes text) = text :=
  List.take_append_drop _ _

/-- Behind a first part there is as much of the second as its bytes hold. -/
theorem within_width_add (s : List Char) (bytes : Nat) (t : List Char) :
    within (width s + bytes) (s ++ t) = s ++ within bytes t := by
  rw [within, charsWithin_width_add, List.take_length_add_append, within]

theorem within_append_of_le {s : List Char} (h : bytes ≤ width s) (t : List Char) :
    within bytes (s ++ t) = within bytes s := by
  rw [within, within, charsWithin_append_of_le h,
    List.take_append_of_le_length (charsWithin_le_length bytes s)]

theorem width_le_of_prefix {s t : List Char} (h : s <+: t) : width s ≤ width t := by
  obtain ⟨rest, rfl⟩ := h
  rw [width_append]
  exact Nat.le_add_right _ _

theorem width_within_le (bytes : Nat) (text : List Char) : width (within bytes text) ≤ bytes := by
  rw [within]
  induction text generalizing bytes with
  | nil => exact Nat.zero_le _
  | cons c text ih =>
    rw [charsWithin]
    split
    · have hrest := ih (bytes - c.utf8Size)
      rw [List.take_succ_cons, width_cons]
      omega
    · exact Nat.zero_le _

/-- **What lies whole within some bytes ends at the last boundary that is not past them.** -/
theorem isGreatest_width_within (bytes : Nat) (text : List Char) :
    IsGreatest {place | IsBoundary text place ∧ place ≤ bytes} (width (within bytes text)) := by
  constructor
  · exact ⟨⟨_, _, (within_append_drop bytes text).symm, rfl⟩, width_within_le bytes text⟩
  · rintro place ⟨⟨front, back, rfl, rfl⟩, hle⟩
    -- The characters in front of the boundary are among those that are counted.
    have hlength : front.length ≤ charsWithin bytes (front ++ back) := by
      rw [← charsWithin_width_append front back]
      exact charsWithin_le_charsWithin hle _
    refine width_le_of_prefix (List.prefix_take_iff.mpr ⟨?_, hlength⟩)
    exact List.prefix_append front back

/-- Past the end of the text there is no other boundary. -/
theorem isGreatest_width_within_min (bytes : Nat) (text : List Char) :
    IsGreatest {place | IsBoundary text place ∧ place ≤ min bytes (width text)}
      (width (within bytes text)) := by
  obtain ⟨⟨hboundary, hle⟩, hlast⟩ := isGreatest_width_within bytes text
  exact ⟨⟨hboundary, Nat.le_min.mpr ⟨hle, hboundary.le_width⟩⟩,
    fun place hplace => hlast ⟨hplace.1, Nat.le_trans hplace.2 (Nat.min_le_left _ _)⟩⟩

end SourceOutline.Text
