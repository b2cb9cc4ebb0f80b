import SourceOutline.Position
import SourceOutline.Proofs.Text.Boundary

/-!
# Lines and positions

The table of a text holds its lines, each with where it starts and the text from there on
(`mem_lines_ofText`). The search in it **ends on a line that starts at or before the offset**, while
the next line does not (`startsBy_lineOf`); which of the lines the halving looks at on its way does
not matter.

On boundaries of the text a position therefore is the number of a line and the number of characters
from its start (`position_width`), and **different boundaries have different positions**
(`position_injective`).
-/

namespace SourceOutline.LineTable

open Text

/-! ### The lines of a text -/

/-- The lines that start after the given offset, which the text begins at. -/
def linesBehind (offset : Nat) : List Char → List Line
  | [] => []
  | '\n' :: rest => ⟨offset + 1, rest⟩ :: linesBehind (offset + 1) rest
  | '\r' :: '\n' :: rest => ⟨offset + 2, rest⟩ :: linesBehind (offset + 2) rest
  | '\r' :: rest => ⟨offset + 1, rest⟩ :: linesBehind (offset + 1) rest
  | c :: rest => linesBehind (offset + c.utf8Size) rest

theorem toList_addLines (lines : Array Line) (offset : Nat) (text : List Char) :
    (addLines lines offset text).toList = lines.toList ++ linesBehind offset text := by
  fun_induction addLines lines offset text <;> simp_all [linesBehind]

theorem toList_lines_ofText (text : List Char) :
    (ofText text).lines.toList = ⟨0, text⟩ :: linesBehind 0 text := by
  rw [ofText, toList_addLines]
  rfl

/-- Each line holds the text from where it starts. -/
theorem mem_linesBehind {offset : Nat} {text : List Char} {line : Line}
    (h : line ∈ linesBehind offset text) :
    ∃ front, text = front ++ line.rest ∧ line.start = offset + width front := by
  have hr : ('\r' : Char).utf8Size = 1 := rfl
  have hn : ('\n' : Char).utf8Size = 1 := rfl
  fun_induction linesBehind offset text with
  | case1 => simp at h
  | case2 offset rest ih =>
    rcases List.mem_cons.mp h with rfl | h
    · exact ⟨['\n'], rfl, rfl⟩
    · obtain ⟨front, hrest, hstart⟩ := ih h
      refine ⟨'\n' :: front, by rw [hrest, List.cons_append], ?_⟩
      rw [hstart, width_cons, hn]
      omega
  | case3 offset rest ih =>
    -- A carriage return and its line feed are one end of a line.
    rcases List.mem_cons.mp h with rfl | h
    · exact ⟨['\r', '\n'], rfl, rfl⟩
    · obtain ⟨front, hrest, hstart⟩ := ih h
      refine ⟨'\r' :: '\n' :: front, by rw [hrest, List.cons_append, List.cons_append], ?_⟩
      rw [hstart, width_cons, width_cons, hr, hn]
      omega
  | case4 offset rest _ ih =>
    rcases List.mem_cons.mp h with rfl | h
    · exact ⟨['\r'], rfl, rfl⟩
    · obtain ⟨front, hrest, hstart⟩ := ih h
      refine ⟨'\r' :: front, by rw [hrest, List.cons_append], ?_⟩
      rw [hstart, width_cons, hr]
      omega
  | case5 offset c rest _ _ _ ih =>
    obtain ⟨front, hrest, hstart⟩ := ih h
    refine ⟨c :: front, by rw [hrest, List.cons_append], ?_⟩
    rw [hstart, width_cons]
    omega

/-- Each line of a text holds the text from where it starts. -/
theorem mem_lines_ofText {text : List Char} {index : Nat} {line : Line}
    (h : (ofText text).lines[index]? = some line) :
    ∃ front, text = front ++ line.rest ∧ line.start = width front := by
  have hmem : line ∈ (ofText text).lines.toList := by
    rw [← Array.getElem?_toList] at h
    exact List.mem_of_getElem? h
  rw [toList_lines_ofText] at hmem
  rcases List.mem_cons.mp hmem with rfl | hmem
  · exact ⟨[], rfl, rfl⟩
  · obtain ⟨front, htext, hstart⟩ := mem_linesBehind hmem
    exact ⟨front, htext, by rw [hstart, Nat.zero_add]⟩

/-! ### The search -/

variable {table : LineTable} {offset : Nat}

/-- Halving a range whose first line starts by the offset, while the one at its end does not, ends
on two neighbours of which the same is true. Every round makes the range smaller. -/
theorem startsBy_search {rounds low high : Nat} (hrounds : high ≤ low + rounds + 1)
    (hlt : low < high) (hlow : table.startsBy offset low = true)
    (hhigh : table.startsBy offset high = false) :
    table.startsBy offset (table.search offset rounds low high) = true ∧
      table.startsBy offset (table.search offset rounds low high + 1) = false := by
  induction rounds generalizing low high with
  | zero =>
    have hnext : high = low + 1 := by omega
    exact ⟨hlow, hnext ▸ hhigh⟩
  | succ rounds ih =>
    rw [search]
    split
    · have hnext : high = low + 1 := by omega
      exact ⟨hlow, hnext ▸ hhigh⟩
    · dsimp only
      split
      next hmiddle => exact ih (by omega) (by omega) hmiddle hhigh
      next hmiddle => exact ih (by omega) (by omega) hlow (Bool.eq_false_iff.mpr hmiddle)

/-- The line found starts at or before the offset, and the next one does not. -/
theorem startsBy_lineOf (text : List Char) (offset : Nat) :
    (ofText text).startsBy offset ((ofText text).lineOf offset) = true ∧
      (ofText text).startsBy offset ((ofText text).lineOf offset + 1) = false := by
  have hsize : 0 < (ofText text).lines.size := by
    rw [← Array.length_toList, toList_lines_ofText]
    exact Nat.succ_pos _
  refine startsBy_search (by omega) hsize ?_ ?_
  · have hfirst : (ofText text).lines[0]? = some ⟨0, text⟩ := by
      rw [← Array.getElem?_toList, toList_lines_ofText]
      rfl
    simp [startsBy, hfirst]
  · simp [startsBy]

/-! ### Positions of boundaries -/

/-- The position of a boundary: the line found begins with what lies before it, and the column
counts the characters from there. -/
theorem position_width (front back : List Char) :
    ∃ before between, front = before ++ between ∧
      (ofText (front ++ back)).lines[(ofText (front ++ back)).lineOf (width front)]? =
        some ⟨width before, between ++ back⟩ ∧
      (ofText (front ++ back)).position (width front) =
        ⟨(ofText (front ++ back)).lineOf (width front) + 1, between.length + 1⟩ := by
  have hstarts := (startsBy_lineOf (front ++ back) (width front)).1
  obtain ⟨line, hline, hle⟩ : ∃ line : Line,
      (ofText (front ++ back)).lines[(ofText (front ++ back)).lineOf (width front)]? = some line ∧
        line.start ≤ width front := by
    rw [startsBy] at hstarts
    split at hstarts
    · next line hline => exact ⟨line, hline, by simpa using hstarts⟩
    · simp at hstarts
  obtain ⟨before, htext, hstart⟩ := mem_lines_ofText hline
  obtain ⟨between, hfront⟩ := prefix_of_width_le htext.symm (hstart ▸ hle)
  have hrest : line.rest = between ++ back := by
    rw [← hfront, List.append_assoc] at htext
    exact (List.append_cancel_left htext).symm
  refine ⟨before, between, hfront.symm, by rw [hline, ← hrest, ← hstart], ?_⟩
  have hbytes : width front - line.start = width between := by
    rw [hstart, ← hfront, width_append, Nat.add_sub_cancel_left]
  simp only [position, hline]
  rw [hbytes, hrest, charsWithin_width_append]

/-- **Different boundaries have different positions.** -/
theorem position_injective {text : List Char} {a b : Nat} (ha : IsBoundary text a)
    (hb : IsBoundary text b) (h : (ofText text).position a = (ofText text).position b) : a = b := by
  obtain ⟨front, back, htext, rfl⟩ := ha
  obtain ⟨front', back', htext', rfl⟩ := hb
  obtain ⟨before, between, hfront, hline, hposition⟩ := position_width front back
  obtain ⟨before', between', hfront', hline', hposition'⟩ := position_width front' back'
  rw [← htext] at hline hposition
  rw [← htext'] at hline' hposition'
  rw [hposition, hposition', Position.mk.injEq, Nat.add_right_cancel_iff,
    Nat.add_right_cancel_iff] at h
  obtain ⟨hindex, hlength⟩ := h
  rw [hindex, hline', Option.some_inj, Line.mk.injEq] at hline
  -- Both lie in one line, behind equally many of its characters.
  have hbetween : between = between' := (List.append_inj hline.2.symm hlength).1
  rw [hfront, hfront', width_append, width_append, hline.1, hbetween]

end SourceOutline.LineTable
