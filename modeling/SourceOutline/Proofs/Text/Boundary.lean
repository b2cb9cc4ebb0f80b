import SourceOutline.Text.Utf8

/-!
# Places between characters

A byte offset is a **boundary** of a text when a part of the text ends there. Two parts of one text
that begin it are comparable by their bytes alone: the narrower is a prefix of the wider
(`prefix_of_width_le`), and equally wide ones are equal (`eq_of_width_eq`). So a boundary is the end
of one part only, and what lies behind it is found by skipping bytes.
-/

namespace SourceOutline.Text

/-- A byte offset at which a first part of the text ends. -/
def IsBoundary (text : List Char) (offset : Nat) : Prop :=
  ∃ front back, text = front ++ back ∧ width front = offset

theorem isBoundary_zero (text : List Char) : IsBoundary text 0 :=
  ⟨[], text, rfl, rfl⟩

theorem IsBoundary.le_width {text : List Char} {place : Nat} (h : IsBoundary text place) :
    place ≤ width text := by
  obtain ⟨front, back, rfl, rfl⟩ := h
  rw [width_append]
  exact Nat.le_add_right _ _

/-- No boundary is inside a character. -/
theorem isBoundary_cons_iff {c : Char} {text : List Char} {place : Nat} :
    IsBoundary (c :: text) place ↔
      place = 0 ∨ ∃ rest, place = c.utf8Size + rest ∧ IsBoundary text rest := by
  constructor
  · rintro ⟨front, back, htext, rfl⟩
    cases front with
    | nil => exact .inl rfl
    | cons d front =>
      rw [List.cons_append, List.cons.injEq] at htext
      obtain ⟨rfl, rfl⟩ := htext
      exact .inr ⟨width front, rfl, front, back, rfl, rfl⟩
  · rintro (rfl | ⟨_, rfl, front, back, rfl, rfl⟩)
    · exact isBoundary_zero _
    · exact ⟨c :: front, back, rfl, rfl⟩

/-- Every character has a byte. -/
@[simp]
theorem width_eq_zero_iff {text : List Char} : width text = 0 ↔ text = [] := by
  cases text with
  | nil => simp
  | cons c rest =>
    have hc : 0 < c.utf8Size := Char.utf8Size_pos c
    simp only [width_cons, reduceCtorEq, iff_false]
    omega

/-- Of two first parts of a text the narrower begins the wider. -/
theorem prefix_of_width_le {front back front' back' : List Char}
    (h : front ++ back = front' ++ back') (hw : width front ≤ width front') :
    front <+: front' := by
  rcases List.append_eq_append_iff.mp h with ⟨between, hfront, -⟩ | ⟨between, hfront, -⟩
  · exact ⟨between, hfront.symm⟩
  · have hzero : width between = 0 := by
      rw [hfront, width_append] at hw
      omega
    refine ⟨[], ?_⟩
    rw [hfront, width_eq_zero_iff.mp hzero, List.append_nil, List.append_nil]

/-- Two first parts of a text with the same number of bytes are equal. -/
theorem eq_of_width_eq {front back front' back' : List Char}
    (h : front ++ back = front' ++ back') (hw : width front = width front') :
    front = front' ∧ back = back' := by
  obtain ⟨between, hfront⟩ := prefix_of_width_le h (Nat.le_of_eq hw)
  have hzero : width between = 0 := by
    rw [← hfront, width_append] at hw
    omega
  rw [width_eq_zero_iff.mp hzero, List.append_nil] at hfront
  subst hfront
  exact ⟨rfl, List.append_cancel_left h⟩

/-- Skipping the bytes of a first part and then some is to skip these in the second. -/
theorem dropBytes_width_add (front : List Char) (bytes : Nat) (text : List Char) :
    dropBytes (width front + bytes) (front ++ text) = dropBytes bytes text := by
  induction front with
  | nil => rw [width_nil, Nat.zero_add, List.nil_append]
  | cons c front ih =>
    have hc : 0 < c.utf8Size := Char.utf8Size_pos c
    have hsome : width (c :: front) + bytes ≠ 0 := by
      rw [width_cons]
      omega
    have hleft : width (c :: front) + bytes - c.utf8Size = width front + bytes := by
      rw [width_cons]
      omega
    rw [List.cons_append, dropBytes, if_neg hsome, hleft, ih]

theorem charsWithin_zero (text : List Char) : charsWithin 0 text = 0 := by
  cases text with
  | nil => rfl
  | cons c rest =>
    have hc : 0 < c.utf8Size := Char.utf8Size_pos c
    rw [charsWithin, if_neg (by omega)]

/-- Behind a first part the counting goes on. -/
theorem charsWithin_width_add (s : List Char) (bytes : Nat) (t : List Char) :
    charsWithin (width s + bytes) (s ++ t) = s.length + charsWithin bytes t := by
  induction s with
  | nil => simp only [width_nil, Nat.zero_add, List.nil_append, List.length_nil]
  | cons c s ih =>
    have hfits : c.utf8Size ≤ width (c :: s) + bytes := by
      rw [width_cons]
      omega
    have hleft : width (c :: s) + bytes - c.utf8Size = width s + bytes := by
      rw [width_cons]
      omega
    rw [List.cons_append, charsWithin, if_pos hfits, hleft, ih, List.length_cons]
    omega

/-- The characters of a first part are those that lie within its bytes. -/
theorem charsWithin_width_append (s t : List Char) :
    charsWithin (width s) (s ++ t) = s.length := by
  have h := charsWithin_width_add s 0 t
  rwa [charsWithin_zero, Nat.add_zero, Nat.add_zero] at h

end SourceOutline.Text
