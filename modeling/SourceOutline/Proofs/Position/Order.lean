import SourceOutline.Proofs.Position.Inside

/-!
# Positions come in the order of their offsets

Positions are ordered by their lines, and on one line by their columns. The line of a later offset
is the same line or a later one (`lineOf_le_lineOf`), and columns count characters from the start
of the line. So the position of a boundary is **before that of every later boundary**
(`position_lt_position`).
-/

namespace SourceOutline

/-- Positions are ordered by their lines, and on one line by their columns. -/
instance : LT Position :=
  ⟨fun first second => first.line < second.line ∨
    first.line = second.line ∧ first.column < second.column⟩

namespace Position

variable {first second : Position}

theorem lt_iff : first < second ↔
    first.line < second.line ∨ first.line = second.line ∧ first.column < second.column :=
  Iff.rfl

theorem line_le_of_lt (h : first < second) : first.line ≤ second.line := by
  rcases lt_iff.mp h with hline | ⟨hline, -⟩
  · exact Nat.le_of_lt hline
  · exact Nat.le_of_eq hline

end Position

namespace LineTable

open Text

variable {text : List Char} {a b : Nat}

/-- Fewer lines are not wider than more. -/
private theorem width_take_le (lines : List (List Char)) {first second : Nat}
    (h : first ≤ second) :
    width (lines.take first).flatten ≤ width (lines.take second).flatten := by
  obtain ⟨more, rfl⟩ := Nat.exists_eq_add_of_le h
  rw [List.take_add, List.flatten_append, width_append]
  exact Nat.le_add_right _ _

/-- If a line starts by an offset, those in front of it start by every later one. -/
theorem startsBy_of_le {first second : Nat} (hindex : first ≤ second) (hoffset : a ≤ b)
    (h : (ofText text).startsBy a second = true) : (ofText text).startsBy b first = true := by
  rw [startsBy, getElem?_lines_ofText] at h ⊢
  have hsecond : second < (splitLines text).length := by
    refine Nat.lt_of_not_le fun hlength => ?_
    rw [List.getElem?_eq_none hlength] at h
    exact Bool.false_ne_true h
  rw [List.getElem?_eq_getElem hsecond] at h
  rw [List.getElem?_eq_getElem (Nat.lt_of_le_of_lt hindex hsecond)]
  simp only [Option.map_some, decide_eq_true_eq] at h ⊢
  exact Nat.le_trans (width_take_le _ hindex) (Nat.le_trans h hoffset)

/-- A later offset is not on an earlier line. -/
theorem lineOf_le_lineOf (text : List Char) (h : a ≤ b) :
    (ofText text).lineOf a ≤ (ofText text).lineOf b := by
  refine Nat.le_of_not_lt fun hlt => ?_
  -- Otherwise the line behind that of `b` would start by `b` too.
  have hstarts := startsBy_of_le hlt h (startsBy_lineOf text a).1
  rw [(startsBy_lineOf text b).2] at hstarts
  exact Bool.false_ne_true hstarts

/-- **A later boundary has a later position.** -/
theorem position_lt_position (ha : IsBoundary text a) (hb : IsBoundary text b) (h : a < b) :
    (ofText text).position a < (ofText text).position b := by
  have hline := lineOf_le_lineOf text (Nat.le_of_lt h)
  obtain ⟨front, back, htext, rfl⟩ := ha
  obtain ⟨front', back', htext', rfl⟩ := hb
  obtain ⟨before, between, hfront, hentry, hposition⟩ := position_width front back
  obtain ⟨before', between', hfront', hentry', hposition'⟩ := position_width front' back'
  rw [← htext] at hentry hposition
  rw [← htext'] at hentry' hposition'
  rw [hposition, hposition', Position.lt_iff]
  rcases Nat.lt_or_eq_of_le hline with hlt | heq
  · exact .inl (Nat.succ_lt_succ hlt)
  · refine .inr ⟨congrArg (· + 1) heq, Nat.succ_lt_succ ?_⟩
    -- On one line, what lies before the first boundary begins what lies before the second.
    rw [heq, hentry', Option.some_inj, Line.mk.injEq] at hentry
    obtain ⟨hbefore, hrest⟩ := hentry
    have hwidth : width between < width between' := by
      rw [hfront, hfront', width_append, width_append, hbefore] at h
      omega
    obtain ⟨more, rfl⟩ := prefix_of_width_le hrest.symm (Nat.le_of_lt hwidth)
    have hmore : more ≠ [] := by
      rintro rfl
      rw [List.append_nil] at hwidth
      exact Nat.lt_irrefl _ hwidth
    rw [List.length_append]
    exact Nat.lt_add_of_pos_right (List.length_pos_iff.mpr hmore)

end LineTable

end SourceOutline
