import SourceOutline.Proofs.Position.Order

/-!
# Positions line by line

A text either holds no line end, or it is a line and the rest of the text (`Text.IsLine`), so facts
about texts can be proved by **induction over the lines** (`Text.byLines`). A position goes by the
same two cases: an offset on the first line has the column that the characters in front of it make,
and what comes behind that line is where it is in the rest, one line further down
(`LineTable.position_of_lt`, `LineTable.position_add`).

Nothing else is needed of the table. In particular a position is the one that is found by **reading
the text character by character** up to the offset (`LineTable.position_eq_positionBehind`): the
line is one more than the lines that have ended by then, and the column counts from the last place
where one has.
-/

namespace SourceOutline

/-- The position some lines further down. -/
def Position.below (lines : Nat) (position : Position) : Position :=
  ⟨position.line + lines, position.column⟩

theorem Position.below_below (first second : Nat) (position : Position) :
    (position.below first).below second = position.below (first + second) := by
  simp only [below, Nat.add_assoc]

namespace Text

/-! ### Where lines end -/

/-- Whether a line ends behind a character, given what follows: behind a line feed, and behind a
carriage return unless a line feed follows, which then ends the line. -/
def endsLine (c : Char) (rest : List Char) : Bool :=
  c = '\n' || c = '\r' && rest.head? != some '\n'

/-- The places of a text where a line has just ended, each as the number of characters in front. -/
def lineEnds : List Char → List Nat
  | [] => []
  | c :: rest =>
    (if endsLine c rest then [1] else []) ++ (lineEnds rest).map (· + 1)

/-- The position behind the given number of characters, by the lines that have ended by then. -/
def positionBehind (count : Nat) (text : List Char) : Position :=
  let ends := (lineEnds text).filter (· ≤ count)
  ⟨1 + ends.length, 1 + (count - ends.getLastD 0)⟩

/-! ### Induction over lines -/

/-- Whether a text has no line end. -/
def IsLastLine (text : List Char) : Prop :=
  ∀ c ∈ text, c ≠ '\n' ∧ c ≠ '\r'

/-- Whether a text is one line with what ends it, if the other text follows. -/
inductive IsLine : (line rest : List Char) → Prop
  | feed (rest : List Char) : IsLine ['\n'] rest
  | both (rest : List Char) : IsLine ['\r', '\n'] rest
  | carriage {rest : List Char} (h : rest.head? ≠ some '\n') : IsLine ['\r'] rest
  | cons {c : Char} {line rest : List Char} (hfeed : c ≠ '\n') (hreturn : c ≠ '\r')
    (h : IsLine line rest) : IsLine (c :: line) rest

/-- A text without line ends is the last line, and any other begins with a line. -/
theorem isLastLine_or_exists (text : List Char) :
    IsLastLine text ∨ ∃ line rest, text = line ++ rest ∧ IsLine line rest := by
  induction text with
  | nil => exact .inl fun _ hc => absurd hc List.not_mem_nil
  | cons c text ih =>
    by_cases hfeed : c = '\n'
    · exact .inr ⟨['\n'], text, by rw [hfeed]; rfl, .feed text⟩
    by_cases hreturn : c = '\r'
    · rw [hreturn]
      by_cases hnext : text.head? = some '\n'
      · obtain ⟨rest, rfl⟩ := List.head?_eq_some_iff.mp hnext
        exact .inr ⟨['\r', '\n'], rest, rfl, .both rest⟩
      · exact .inr ⟨['\r'], text, rfl, .carriage hnext⟩
    rcases ih with hlast | ⟨line, rest, rfl, hline⟩
    · exact .inl (List.forall_mem_cons.mpr ⟨⟨hfeed, hreturn⟩, hlast⟩)
    · exact .inr ⟨c :: line, rest, rfl, .cons hfeed hreturn hline⟩

namespace IsLine

variable {line rest : List Char}

theorem length_pos (h : IsLine line rest) : 0 < line.length := by
  cases h <;> exact Nat.succ_pos _

theorem width_pos (h : IsLine line rest) : 0 < width line := by
  rw [Nat.pos_iff_ne_zero, Ne, width_eq_zero_iff, ← List.length_eq_zero_iff]
  exact Nat.pos_iff_ne_zero.mp h.length_pos

/-- A line is the first one of the lines of the text that it begins. -/
theorem splitLines_append (h : IsLine line rest) :
    splitLines (line ++ rest) = line :: splitLines rest := by
  induction h with
  | feed rest | both rest => rfl
  | @carriage rest h =>
    rw [List.cons_append, List.nil_append, splitLines]
    rintro more rfl
    exact h rfl
  | @cons c line rest hfeed hreturn h ih =>
    rw [List.cons_append, splitLines, ih, consLine]
    · exact hfeed
    · exact fun _ hc _ => hreturn hc
    · exact hreturn

/-- The places where lines end are the end of the first line and those behind it. -/
theorem lineEnds_append (h : IsLine line rest) :
    lineEnds (line ++ rest) = line.length :: (lineEnds rest).map (· + line.length) := by
  induction h with
  | feed rest => rfl
  | both rest =>
    -- It is the line feed that ends the line.
    have hreturn : endsLine '\r' ('\n' :: rest) = false := rfl
    have hfeed : endsLine '\n' rest = true := rfl
    have hbehind : lineEnds ('\n' :: rest) = 1 :: (lineEnds rest).map (· + 1) := by
      rw [lineEnds, if_pos hfeed]
      rfl
    calc lineEnds ('\r' :: '\n' :: rest)
        = (lineEnds ('\n' :: rest)).map (· + 1) := by
          rw [lineEnds, if_neg (ne_true_of_eq_false hreturn), List.nil_append]
      _ = 2 :: (lineEnds rest).map (· + 2) := by
          rw [hbehind, List.map_cons, List.map_map]
          rfl
  | @carriage rest h =>
    rw [List.cons_append, List.nil_append, lineEnds, if_pos]
    · rfl
    · simp [endsLine, h]
  | @cons c line rest hfeed hreturn h ih =>
    have hnone : endsLine c (line ++ rest) = false := by simp [endsLine, hfeed, hreturn]
    calc lineEnds (c :: (line ++ rest))
        = (lineEnds (line ++ rest)).map (· + 1) := by
          rw [lineEnds, if_neg (ne_true_of_eq_false hnone), List.nil_append]
      _ = (line.length + 1) :: (lineEnds rest).map (· + (line.length + 1)) := by
          rw [ih, List.map_cons, List.map_map]
          rfl

end IsLine

theorem splitLines_of_isLastLine {line : List Char} (h : IsLastLine line) :
    splitLines line = [line] := by
  induction line with
  | nil => rfl
  | cons c line ih =>
    rw [IsLastLine, List.forall_mem_cons] at h
    rw [splitLines, ih h.2, consLine]
    · exact h.1.1
    · exact fun _ hc _ => h.1.2 hc
    · exact h.1.2

theorem lineEnds_of_isLastLine {line : List Char} (h : IsLastLine line) : lineEnds line = [] := by
  induction line with
  | nil => rfl
  | cons c line ih =>
    rw [IsLastLine, List.forall_mem_cons] at h
    rw [lineEnds, if_neg (by simp [endsLine, h.1]), ih h.2]
    rfl

/-- **Induction over the lines of a text.** -/
@[elab_as_elim]
theorem byLines {motive : List Char → Prop} (last : ∀ line, IsLastLine line → motive line)
    (cons : ∀ line rest, IsLine line rest → motive rest → motive (line ++ rest))
    (text : List Char) : motive text := by
  induction hlength : text.length using Nat.strongRecOn generalizing text with
  | ind length ih =>
    rcases isLastLine_or_exists text with hlast | ⟨line, rest, rfl, hline⟩
    · exact last text hlast
    · have hpos := hline.length_pos
      rw [List.length_append] at hlength
      exact cons line rest hline (ih rest.length (by omega) rest rfl)

/-! ### Reading character by character -/

theorem positionBehind_of_isLastLine {line : List Char} (h : IsLastLine line) (count : Nat) :
    positionBehind count line = ⟨1, 1 + count⟩ := by
  rw [positionBehind, lineEnds_of_isLastLine h]
  rfl

/-- Up to the end of the first line no line has ended. -/
theorem IsLine.positionBehind_of_lt {line rest : List Char} (h : IsLine line rest) {count : Nat}
    (hlt : count < line.length) : positionBehind count (line ++ rest) = ⟨1, 1 + count⟩ := by
  have hnone : (lineEnds (line ++ rest)).filter (· ≤ count) = [] := by
    rw [h.lineEnds_append, List.filter_eq_nil_iff, List.forall_mem_cons, List.forall_mem_map]
    refine ⟨?_, fun place _ => ?_⟩ <;>
    · rw [decide_eq_true_eq]
      omega
  rw [positionBehind, hnone]
  rfl

/-- Behind the first line it has ended, and then those that the rest counts. -/
theorem IsLine.positionBehind_add {line rest : List Char} (h : IsLine line rest) (count : Nat) :
    positionBehind (line.length + count) (line ++ rest) = (positionBehind count rest).below 1 := by
  have hends : (lineEnds (line ++ rest)).filter (· ≤ line.length + count) =
      line.length :: ((lineEnds rest).filter (· ≤ count)).map (· + line.length) := by
    rw [h.lineEnds_append, List.filter_cons, if_pos (decide_eq_true (Nat.le_add_right _ _)),
      List.filter_map]
    simp only [Function.comp_def, Nat.add_comm _ line.length, Nat.add_le_add_iff_left]
  have hlast : ∀ ends : List Nat,
      (line.length :: ends.map (· + line.length)).getLastD 0 = line.length + ends.getLastD 0 := by
    intro ends
    have hmap : (ends.map (· + line.length)).getLastD (0 + line.length) =
        ends.getLastD 0 + line.length := List.getLastD_map
    rwa [Nat.zero_add, Nat.add_comm (ends.getLastD 0), ← List.getLastD_cons] at hmap
  rw [positionBehind, positionBehind, hends]
  simp only [Position.below, hlast, List.length_cons, List.length_map, Nat.add_sub_add_left,
    Nat.add_assoc]

end Text

namespace LineTable

open Text

variable {line rest : List Char} {offset : Nat}

/-! ### The table, line by line -/

theorem getElem?_starts (table : LineTable) (index : Nat) :
    table.starts.toList[index]? = table.lines[index]?.map Line.start := by
  rw [starts, Array.toList_map, List.getElem?_map, Array.getElem?_toList]

/-- The entry of the first line. -/
theorem getElem?_lines_zero (text : List Char) : (ofText text).lines[0]? = some ⟨0, text⟩ := by
  rw [← Array.getElem?_toList, toList_lines_ofText]
  rfl

/-- The entries behind the first line are those of the rest, moved behind it. -/
theorem getElem?_lines_succ (h : IsLine line rest) (index : Nat) :
    (ofText (line ++ rest)).lines[index + 1]? =
      (ofText rest).lines[index]?.map fun entry => ⟨width line + entry.start, entry.rest⟩ := by
  have hwidth : width ((line :: splitLines rest).take (index + 1)).flatten =
      width line + width ((splitLines rest).take index).flatten := by
    rw [List.take_succ_cons, List.flatten_cons, width_append]
  rw [getElem?_lines_ofText, getElem?_lines_ofText, h.splitLines_append, hwidth, Option.map_map]
  rfl

theorem starts_of_isLastLine (h : IsLastLine line) : (ofText line).starts.toList = [0] := by
  rw [starts, Array.toList_map, toList_lines_eq_tabulate, splitLines_of_isLastLine h]
  rfl

/-- The lines of the rest start where they do in it, behind the first line. -/
theorem starts_append (h : IsLine line rest) :
    (ofText (line ++ rest)).starts.toList =
      0 :: (ofText rest).starts.toList.map (width line + ·) := by
  refine List.ext_getElem? fun index => ?_
  cases index with
  | zero => rw [getElem?_starts, getElem?_lines_zero]; rfl
  | succ index =>
    calc (ofText (line ++ rest)).starts.toList[index + 1]?
        = (ofText rest).lines[index]?.map fun entry => width line + entry.start := by
          rw [getElem?_starts, getElem?_lines_succ h, Option.map_map]
          rfl
      _ = ((ofText rest).starts.toList.map (width line + ·))[index]? := by
          rw [List.getElem?_map, getElem?_starts, Option.map_map]
          rfl

/-- **Each line starts behind those in front of it.** -/
theorem pairwise_starts (text : List Char) : (ofText text).starts.toList.Pairwise (· < ·) := by
  induction text using byLines with
  | last line h => rw [starts_of_isLastLine h]; exact List.pairwise_singleton _ _
  | cons line rest h ih =>
    rw [starts_append h, List.pairwise_cons, List.forall_mem_map, List.pairwise_map]
    exact ⟨fun start _ => Nat.lt_of_lt_of_le h.width_pos (Nat.le_add_right _ _),
      ih.imp fun hlt => Nat.add_lt_add_left hlt _⟩

theorem startsBy_zero (text : List Char) (offset : Nat) :
    (ofText text).startsBy offset 0 = true := by
  rw [startsBy, getElem?_lines_zero]
  exact decide_eq_true (Nat.zero_le _)

theorem startsBy_succ (h : IsLine line rest) (offset index : Nat) :
    (ofText (line ++ rest)).startsBy (width line + offset) (index + 1) =
      (ofText rest).startsBy offset index := by
  rw [startsBy, startsBy, getElem?_lines_succ h]
  cases (ofText rest).lines[index]? with
  | none => rfl
  | some entry => simp only [Option.map_some, Nat.add_le_add_iff_left]

/-- The line behind the first does not start by an offset on the first. -/
theorem startsBy_one (h : IsLine line rest) (hlt : offset < width line) :
    (ofText (line ++ rest)).startsBy offset 1 = false := by
  rw [startsBy, getElem?_lines_succ h, getElem?_lines_zero]
  exact decide_eq_false (Nat.not_le_of_lt hlt)

/-- Only one line starts by an offset while the next one does not. -/
theorem lineOf_eq {text : List Char} {index : Nat}
    (hstarts : (ofText text).startsBy offset index = true)
    (hnext : (ofText text).startsBy offset (index + 1) = false) :
    (ofText text).lineOf offset = index := by
  obtain ⟨hfound, hfound'⟩ := startsBy_lineOf text offset
  rcases Nat.lt_trichotomy ((ofText text).lineOf offset) index with hlt | heq | hgt
  · rw [startsBy_of_le hlt (Nat.le_refl offset) hstarts] at hfound'
    exact absurd hfound' Bool.noConfusion
  · exact heq
  · rw [startsBy_of_le hgt (Nat.le_refl offset) hfound] at hnext
    exact absurd hnext Bool.noConfusion

/-! ### Positions, line by line -/

/-- On the first line the column counts the characters in front. -/
private theorem position_of_lineOf_eq_zero {text : List Char}
    (h : (ofText text).lineOf offset = 0) :
    (ofText text).position offset = ⟨1, charsWithin offset text + 1⟩ := by
  simp only [position, h, getElem?_lines_zero, Nat.sub_zero, Nat.zero_add]

/-- Without line ends all offsets are on the first line. -/
theorem position_of_isLastLine (h : IsLastLine line) (offset : Nat) :
    (ofText line).position offset = ⟨1, charsWithin offset line + 1⟩ := by
  refine position_of_lineOf_eq_zero (lineOf_eq (startsBy_zero line offset) ?_)
  rw [startsBy, getElem?_lines_ofText, splitLines_of_isLastLine h]
  rfl

/-- An offset on the first line is where the characters in front of it end. -/
theorem position_of_lt (h : IsLine line rest) (hlt : offset < width line) :
    (ofText (line ++ rest)).position offset = ⟨1, charsWithin offset line + 1⟩ := by
  rw [position_of_lineOf_eq_zero (lineOf_eq (startsBy_zero _ offset) (startsBy_one h hlt)),
    charsWithin_append_of_le (Nat.le_of_lt hlt)]

/-- **Behind the first line all is where it is in the rest, one line further down.** -/
theorem position_add (h : IsLine line rest) (offset : Nat) :
    (ofText (line ++ rest)).position (width line + offset) =
      ((ofText rest).position offset).below 1 := by
  obtain ⟨hstarts, hnext⟩ := startsBy_lineOf rest offset
  have hindex : (ofText (line ++ rest)).lineOf (width line + offset) =
      (ofText rest).lineOf offset + 1 :=
    lineOf_eq ((startsBy_succ h _ _).trans hstarts) ((startsBy_succ h _ _).trans hnext)
  rw [position, position, hindex, getElem?_lines_succ h]
  cases hentry : (ofText rest).lines[(ofText rest).lineOf offset]? with
  | none =>
    rw [startsBy, hentry] at hstarts
    exact absurd hstarts Bool.noConfusion
  | some entry =>
    simp only [Option.map_some, Nat.add_sub_add_left]
    rfl

/-- **The position of an offset is the one behind the characters in front of it**, as reading the
text finds it. -/
theorem position_eq_positionBehind (text : List Char) (offset : Nat) :
    (ofText text).position offset = positionBehind (charsWithin offset text) text := by
  induction text using byLines generalizing offset with
  | last line h => rw [position_of_isLastLine h, positionBehind_of_isLastLine h, Nat.add_comm]
  | cons line rest h ih =>
    rcases Nat.lt_or_ge offset (width line) with hlt | hge
    · rw [position_of_lt h hlt, h.positionBehind_of_lt (charsWithin_lt_length hlt rest),
        charsWithin_append_of_le (Nat.le_of_lt hlt), Nat.add_comm]
    · obtain ⟨behind, rfl⟩ := Nat.exists_eq_add_of_le hge
      rw [position_add h, ih, charsWithin_width_add, h.positionBehind_add]

/-- An offset has the position of the last boundary that is not past it. -/
theorem position_width_within (text : List Char) (offset : Nat) :
    (ofText text).position (width (within offset text)) = (ofText text).position offset := by
  have hcount : charsWithin (width (within offset text)) text = charsWithin offset text := by
    have hfront := charsWithin_width_append (within offset text)
      (text.drop (charsWithin offset text))
    rwa [within_append_drop, length_within] at hfront
  rw [position_eq_positionBehind, position_eq_positionBehind, hcount]

end LineTable

end SourceOutline
