import SourceOutline.Proofs.Position.Lines
import SourceOutline.Proofs.Text.Within

/-!
# Every position is one in the text

The lines of a text, each with what ends it, are `Text.splitLines`; joined, they are the text
(`flatten_splitLines`). The table of a text has one entry for each of them, which starts where the
lines in front of it end (`toList_lines_eq_tabulate`).

A position is **in a text** if there is a line with its number, and its column is that of a
character of the line, the ones that end it included; on the last line it may also be one further,
where the text ends (`Position.IsIn`). **Main result** (`isIn_position`): whatever the offset is,
its position is one in the text, also if the offset is past the end or inside a character. So no
line and no column is more than one beyond the length of the text (`Position.IsIn.le_length`).
-/

namespace SourceOutline

namespace Text

/-! ### The lines of a text -/

/-- Puts a character in front of the first line. -/
def consLine (c : Char) : List (List Char) → List (List Char)
  | [] => [[c]]
  | line :: lines => (c :: line) :: lines

/-- The lines of a text, each with the line feed, the carriage return or both that end it. The last
one is what remains, and may be empty. -/
def splitLines : List Char → List (List Char)
  | [] => [[]]
  | '\n' :: rest => ['\n'] :: splitLines rest
  | '\r' :: '\n' :: rest => ['\r', '\n'] :: splitLines rest
  | '\r' :: rest => ['\r'] :: splitLines rest
  | c :: rest => consLine c (splitLines rest)

/-- There is a first line. It is empty only where the text is. -/
theorem exists_splitLines_eq_cons (text : List Char) :
    ∃ line others, splitLines text = line :: others ∧ (line = [] → others = []) := by
  fun_induction splitLines text with
  | case1 => exact ⟨[], [], rfl, fun _ => rfl⟩
  | case2 rest _ => exact ⟨_, _, rfl, nofun⟩
  | case3 rest _ => exact ⟨_, _, rfl, nofun⟩
  | case4 rest _ _ => exact ⟨_, _, rfl, nofun⟩
  | case5 c rest _ _ _ ih =>
    obtain ⟨line, others, hlines, -⟩ := ih
    rw [hlines]
    exact ⟨c :: line, others, rfl, nofun⟩

theorem flatten_consLine (c : Char) (lines : List (List Char)) :
    (consLine c lines).flatten = c :: lines.flatten := by
  cases lines <;> rfl

/-- **The lines make up the text.** -/
theorem flatten_splitLines (text : List Char) : (splitLines text).flatten = text := by
  fun_induction splitLines text with
  | case1 => rfl
  | case2 rest ih => rw [List.flatten_cons, ih]; rfl
  | case3 rest ih => rw [List.flatten_cons, ih]; rfl
  | case4 rest _ ih => rw [List.flatten_cons, ih]; rfl
  | case5 c rest _ _ _ ih => rw [flatten_consLine, ih]

/-- Each line but the last has a character that ends it. -/
theorem length_splitLines_le (text : List Char) : (splitLines text).length ≤ text.length + 1 := by
  fun_induction splitLines text with
  | case1 => exact Nat.le_refl 1
  | case2 rest ih => exact Nat.succ_le_succ ih
  | case3 rest ih => exact Nat.succ_le_succ (Nat.le_succ_of_le ih)
  | case4 rest _ ih => exact Nat.succ_le_succ ih
  | case5 c rest _ _ _ ih =>
    obtain ⟨line, others, hlines, -⟩ := exists_splitLines_eq_cons rest
    rw [hlines] at ih ⊢
    exact Nat.le_succ_of_le ih

end Text

namespace LineTable

open Text

/-! ### The table of the lines -/

/-- The entries of a table for the given lines, of which the first starts at the offset. -/
def tabulate (offset : Nat) : List (List Char) → List Line
  | [] => []
  | line :: lines => ⟨offset, (line :: lines).flatten⟩ :: tabulate (offset + width line) lines

/-- The entries behind the first are those of the lines that a text ends. -/
private theorem cons_linesBehind_eq_tabulate (offset : Nat) (text : List Char) :
    ⟨offset, text⟩ :: linesBehind offset text = tabulate offset (splitLines text) := by
  have hr : ('\r' : Char).utf8Size = 1 := rfl
  have hn : ('\n' : Char).utf8Size = 1 := rfl
  fun_induction linesBehind offset text with
  | case1 offset => rfl
  | case2 offset rest ih =>
    rw [splitLines, tabulate, List.flatten_cons, flatten_splitLines, ih]
    rfl
  | case3 offset rest ih =>
    rw [splitLines, tabulate, List.flatten_cons, flatten_splitLines, ih]
    rfl
  | case4 offset rest hrest ih =>
    rw [splitLines, tabulate, List.flatten_cons, flatten_splitLines, ih]
    · rfl
    · exact hrest
  | case5 offset c rest hfeed hboth hreturn ih =>
    -- The character belongs to the first line of what follows it.
    obtain ⟨line, others, hlines, -⟩ := exists_splitLines_eq_cons rest
    have hrest : line ++ others.flatten = rest := by
      rw [← List.flatten_cons, ← hlines, flatten_splitLines]
    rw [hlines, tabulate, List.cons.injEq] at ih
    have hsplit : splitLines (c :: rest) = (c :: line) :: others := by
      rw [splitLines, hlines, consLine]
      · exact hfeed
      · exact hboth
      · exact hreturn
    have hbehind : linesBehind (offset + c.utf8Size) rest =
        tabulate (offset + width (c :: line)) others := by
      rw [ih.2, width_cons, Nat.add_assoc]
    have htext : ((c :: line) :: others).flatten = c :: rest := by
      rw [List.flatten_cons, List.cons_append, hrest]
    rw [hsplit, tabulate, hbehind, htext]

/-- **The table has one entry for each line.** -/
theorem toList_lines_eq_tabulate (text : List Char) :
    (ofText text).lines.toList = tabulate 0 (splitLines text) := by
  rw [toList_lines_ofText, cons_linesBehind_eq_tabulate]

theorem length_tabulate (offset : Nat) (lines : List (List Char)) :
    (tabulate offset lines).length = lines.length := by
  induction lines generalizing offset with
  | nil => rfl
  | cons line lines ih => rw [tabulate, List.length_cons, List.length_cons, ih]

/-- The number of lines is what the table says. -/
theorem lineCount_ofText (text : List Char) :
    (ofText text).lineCount = (splitLines text).length := by
  rw [lineCount, ← Array.length_toList, toList_lines_eq_tabulate, length_tabulate]

/-- Each entry starts where the lines in front of it end, and holds the others. -/
theorem getElem?_tabulate (offset index : Nat) (lines : List (List Char)) :
    (tabulate offset lines)[index]? = lines[index]?.map fun _ =>
      ⟨offset + width (lines.take index).flatten, (lines.drop index).flatten⟩ := by
  induction lines generalizing offset index with
  | nil => rfl
  | cons line lines ih =>
    cases index with
    | zero => rfl
    | succ index =>
      calc (tabulate offset (line :: lines))[index + 1]?
          = (tabulate (offset + width line) lines)[index]? := List.getElem?_cons_succ
        _ = lines[index]?.map fun _ => ⟨offset + width line + width (lines.take index).flatten,
              (lines.drop index).flatten⟩ := ih _ _
        _ = (line :: lines)[index + 1]?.map fun _ =>
              ⟨offset + width ((line :: lines).take (index + 1)).flatten,
                ((line :: lines).drop (index + 1)).flatten⟩ := by
            rw [List.take_succ_cons, List.flatten_cons, width_append, Nat.add_assoc]
            rfl

theorem getElem?_lines_ofText (text : List Char) (index : Nat) :
    (ofText text).lines[index]? = (splitLines text)[index]?.map fun _ =>
      ⟨width ((splitLines text).take index).flatten, ((splitLines text).drop index).flatten⟩ := by
  rw [← Array.getElem?_toList, toList_lines_eq_tabulate, getElem?_tabulate]
  simp only [Nat.zero_add]

end LineTable

/-! ### Positions in a text -/

/-- Whether a position is one in the text: it is that of a character, of one that ends a line, or of
the end of the text. -/
structure Position.IsIn (position : Position) (text : List Char) : Prop where
  one_le_line : 1 ≤ position.line
  line_le : position.line ≤ (LineTable.ofText text).lineCount
  one_le_column : 1 ≤ position.column
  /-- The line has a character in the column, or it is the last one and ends there. -/
  column : ∃ line, (Text.splitLines text)[position.line - 1]? = some line ∧
    (position.column - 1 < line.length ∨
      position.column - 1 = line.length ∧ position.line = (LineTable.ofText text).lineCount)

/-- Neither the line nor the column is more than one beyond the length of the text. -/
theorem Position.IsIn.le_length {position : Position} {text : List Char} (h : position.IsIn text) :
    position.line ≤ text.length + 1 ∧ position.column ≤ text.length + 1 := by
  have hline := h.line_le
  rw [LineTable.lineCount_ofText] at hline
  obtain ⟨line, hfound, hcolumn⟩ := h.column
  have hlength : line.length ≤ text.length := by
    have hsublist := List.sublist_flatten_of_mem (List.mem_of_getElem? hfound)
    rw [Text.flatten_splitLines] at hsublist
    exact hsublist.length_le
  exact ⟨Nat.le_trans hline (Text.length_splitLines_le text), by omega⟩

namespace LineTable

open Text

/-- The place where a text begins is one in it. -/
theorem isIn_first (text : List Char) : Position.IsIn {} text := by
  obtain ⟨line, others, hlines, hempty⟩ := exists_splitLines_eq_cons text
  have hcount : (ofText text).lineCount = others.length + 1 := by
    rw [lineCount_ofText, hlines, List.length_cons]
  refine ⟨Nat.le_refl 1, ?_, Nat.le_refl 1, line, by rw [hlines]; rfl, ?_⟩
  · rw [hcount]
    exact Nat.succ_le_succ (Nat.zero_le _)
  · cases line with
    | nil => exact .inr ⟨rfl, by rw [hcount, hempty rfl]; rfl⟩
    | cons c line => exact .inl (Nat.succ_pos _)

/-- What the search for an offset comes to: a line that starts at or before the offset, and behind
it either none or one that starts past the offset. -/
private theorem exists_line_lineOf (text : List Char) (offset : Nat) :
    ∃ start line others, (splitLines text).drop ((ofText text).lineOf offset) = line :: others ∧
      (ofText text).lines[(ofText text).lineOf offset]? = some ⟨start, line ++ others.flatten⟩ ∧
      start ≤ offset ∧ (others = [] ∨ offset < start + width line) := by
  obtain ⟨hstarts, hnext⟩ := startsBy_lineOf text offset
  generalize (ofText text).lineOf offset = index at hstarts hnext
  rw [startsBy, getElem?_lines_ofText] at hstarts hnext
  obtain ⟨line, hline, hle⟩ : ∃ line, (splitLines text)[index]? = some line ∧
      width ((splitLines text).take index).flatten ≤ offset := by
    cases hline : (splitLines text)[index]? with
    | none => simp [hline] at hstarts
    | some line => exact ⟨line, rfl, by simpa [hline] using hstarts⟩
  obtain ⟨hindex, rfl⟩ := List.getElem?_eq_some_iff.mp hline
  have hdrop := List.drop_eq_getElem_cons hindex
  refine ⟨_, _, _, hdrop, ?_, hle, ?_⟩
  · rw [getElem?_lines_ofText, hline, Option.map_some, hdrop, List.flatten_cons]
  · cases hothers : (splitLines text)[index + 1]? with
    | none => exact .inl (List.drop_eq_nil_of_le (List.getElem?_eq_none_iff.mp hothers))
    | some next =>
      refine .inr ?_
      simp only [hothers, Option.map_some, decide_eq_false_iff_not, Nat.not_le] at hnext
      rwa [List.take_add_one, hline, Option.toList_some, List.flatten_append,
        List.flatten_singleton, width_append] at hnext

/-- **Every offset has a position in the text.** -/
theorem isIn_position (text : List Char) (offset : Nat) :
    ((ofText text).position offset).IsIn text := by
  obtain ⟨start, line, others, hdrop, hentry, hle, hnext⟩ := exists_line_lineOf text offset
  rw [position]
  generalize (ofText text).lineOf offset = index at hdrop hentry
  simp only [hentry]
  have hline : (splitLines text)[index]? = some line := by
    rw [← List.head?_drop, hdrop, List.head?_cons]
  have hcount : (ofText text).lineCount = index + others.length + 1 := by
    have hlength := congrArg List.length hdrop
    rw [List.length_drop, List.length_cons] at hlength
    rw [lineCount_ofText]
    omega
  have hlast : index + 1 ≤ (ofText text).lineCount := by omega
  refine ⟨Nat.succ_pos _, hlast, Nat.succ_pos _, line, hline, ?_⟩
  rw [hcount, Nat.add_sub_cancel]
  rcases hnext with rfl | hlt
  · -- On the last line all characters may lie before the offset.
    rw [List.flatten_nil, List.append_nil]
    rcases Nat.lt_or_eq_of_le (charsWithin_le_length (offset - start) line) with hlt | heq
    · exact .inl hlt
    · exact .inr ⟨heq, rfl⟩
  · have hbytes : offset - start < width line := by omega
    exact .inl (charsWithin_lt_length hbytes _)

end LineTable

end SourceOutline
