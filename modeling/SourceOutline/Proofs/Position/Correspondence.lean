import SourceOutline.Proofs.Position.LineEnds

/-!
# Boundaries and positions correspond

A position leads back to an offset: from the start of its line as many characters are skipped as its
column says (`LineTable.offset?`). On the boundaries of a text the two are inverse to each other,
every position in the text is that of a boundary (`LineTable.exists_isBoundary_position_eq`), and
both keep the order. So the boundaries of a text and the positions in it **are the same order**
(`LineTable.position_isOrderIso`); other offsets share the position of the boundary in front of
them, so along all offsets positions only never go back.
-/

namespace SourceOutline

namespace Position

/-- A position is at or in front of another. -/
instance : LE Position :=
  ⟨fun first second => first < second ∨ first = second⟩

variable {first second : Position}

theorem le_iff : first ≤ second ↔ first < second ∨ first = second :=
  Iff.rfl

protected theorem lt_irrefl (position : Position) : ¬ position < position := by
  rintro (h | ⟨-, h⟩) <;> exact Nat.lt_irrefl _ h

protected theorem lt_asymm (h : first < second) : ¬ second < first := by
  rw [lt_iff] at h ⊢
  omega

end Position

namespace LineTable

open Text

variable {text : List Char} {a b : Nat}

/-- The offset of a position: its column says how many characters to skip from the start of its
line. -/
def offset? (table : LineTable) (position : Position) : Option Nat :=
  table.lines[position.line - 1]?.map fun line =>
    line.start + width (line.rest.take (position.column - 1))

/-- **Skipping characters from the start of the line leads back to the boundary.** -/
theorem offset?_position (h : IsBoundary text a) :
    (ofText text).offset? ((ofText text).position a) = some a := by
  obtain ⟨front, back, rfl, rfl⟩ := h
  obtain ⟨before, between, hfront, hentry, hposition⟩ := position_width front back
  rw [hposition, offset?]
  simp only [Nat.add_sub_cancel, hentry, Option.map_some, List.take_left]
  rw [hfront, width_append]

/-- **Positions of boundaries are in the order of the boundaries.** -/
theorem position_lt_position_iff (ha : IsBoundary text a) (hb : IsBoundary text b) :
    (ofText text).position a < (ofText text).position b ↔ a < b := by
  refine ⟨fun h => ?_, position_lt_position ha hb⟩
  rcases Nat.lt_trichotomy a b with hlt | rfl | hgt
  · exact hlt
  · exact absurd h (Position.lt_irrefl _)
  · exact absurd h (Position.lt_asymm (position_lt_position hb ha hgt))

/-- A later offset does not have an earlier position, also where it is no boundary. -/
theorem position_le_position (text : List Char) (h : a ≤ b) :
    (ofText text).position a ≤ (ofText text).position b := by
  obtain ⟨⟨ha, hle⟩, -⟩ := isGreatest_width_within a text
  obtain ⟨⟨hb, -⟩, hlast⟩ := isGreatest_width_within b text
  rw [← position_width_within text a, ← position_width_within text b, Position.le_iff]
  rcases Nat.lt_or_eq_of_le (hlast ⟨ha, Nat.le_trans hle h⟩) with hlt | heq
  · exact .inl (position_lt_position ha hb hlt)
  · exact .inr (congrArg _ heq)

/-! ### Every position in a text is that of a boundary -/

/-- The positions in a text without line ends. -/
private theorem isIn_of_isLastLine {line : List Char} (hline : IsLastLine line)
    {position : Position} (h : position.IsIn line) :
    ∃ count, count ≤ line.length ∧ position = ⟨1, count + 1⟩ := by
  have hfirst := h.one_le_line
  have hone := h.one_le_column
  have hlast := h.line_le
  obtain ⟨other, hother, hcolumn⟩ := h.column
  rw [lineCount_ofText, splitLines_of_isLastLine hline, List.length_singleton] at hlast
  have hnumber : position.line = 1 := Nat.le_antisymm hlast hfirst
  rw [hnumber, splitLines_of_isLastLine hline, List.getElem?_cons_zero, Option.some_inj] at hother
  subst hother
  refine ⟨position.column - 1, ?_, ?_⟩
  · omega
  · rw [Nat.sub_add_cancel hone, ← hnumber]

/-- The positions in a text are those on its first line, up to its last character, and those in the
rest, one line further down. -/
private theorem isIn_of_isLine {line rest : List Char} (hline : IsLine line rest)
    {position : Position} (h : position.IsIn (line ++ rest)) :
    (∃ count, count < line.length ∧ position = ⟨1, count + 1⟩) ∨
      ∃ inner : Position, inner.IsIn rest ∧ position = inner.below 1 := by
  obtain ⟨number, column⟩ := position
  obtain ⟨other, hother, hcolumn⟩ := h.column
  have hfirst := h.one_le_line
  have hone := h.one_le_column
  have hle := h.line_le
  simp only [lineCount_ofText, hline.splitLines_append, List.length_cons] at hfirst hone hle hcolumn
  rw [hline.splitLines_append] at hother
  obtain ⟨index, rfl⟩ := Nat.exists_eq_add_of_le' hfirst
  rw [Nat.add_sub_cancel] at hother
  cases index with
  | zero =>
    rw [List.getElem?_cons_zero, Option.some_inj] at hother
    subst hother
    obtain ⟨last, lines, hrest, -⟩ := exists_splitLines_eq_cons rest
    rw [hrest, List.length_cons] at hcolumn
    refine .inl ⟨column - 1, by omega, ?_⟩
    rw [Nat.sub_add_cancel hone]
  | succ index =>
    rw [List.getElem?_cons_succ] at hother
    refine .inr ⟨⟨index + 1, column⟩, ⟨Nat.succ_pos _, ?_, hone, other, hother, ?_⟩, rfl⟩
    · rw [lineCount_ofText]
      exact Nat.le_of_succ_le_succ hle
    · rw [lineCount_ofText]
      exact hcolumn.imp_right fun hend => ⟨hend.1, Nat.succ.inj hend.2⟩

/-- Behind any number of the characters of a text is a boundary. -/
private theorem isBoundary_width_take (text : List Char) (count : Nat) :
    IsBoundary text (width (text.take count)) :=
  ⟨text.take count, text.drop count, (List.take_append_drop count text).symm, rfl⟩

private theorem charsWithin_width_take {text : List Char} {count : Nat} (h : count ≤ text.length) :
    charsWithin (width (text.take count)) text = count := by
  have hcount := charsWithin_width_append (text.take count) (text.drop count)
  rwa [List.take_append_drop, List.length_take_of_le h] at hcount

private theorem width_take_lt {line : List Char} {count : Nat} (h : count < line.length) :
    width (line.take count) < width line := by
  refine Nat.lt_of_not_le fun hle => Nat.not_le_of_lt h ?_
  have hall := charsWithin_le_charsWithin hle line
  rwa [charsWithin_width, charsWithin_width_take (Nat.le_of_lt h)] at hall

/-- **Every position in a text is that of a boundary**, line by line: the one behind as many
characters of the line as the column says. -/
theorem exists_isBoundary_position_eq {position : Position} (h : position.IsIn text) :
    ∃ a, IsBoundary text a ∧ (ofText text).position a = position := by
  induction text using byLines generalizing position with
  | last line hline =>
    obtain ⟨count, hcount, rfl⟩ := isIn_of_isLastLine hline h
    refine ⟨_, isBoundary_width_take line count, ?_⟩
    rw [position_of_isLastLine hline, charsWithin_width_take hcount]
  | cons line rest hline ih =>
    rcases isIn_of_isLine hline h with ⟨count, hcount, rfl⟩ | ⟨inner, hinner, rfl⟩
    · have hboundary := isBoundary_width_take (line ++ rest) count
      rw [List.take_append_of_le_length (Nat.le_of_lt hcount)] at hboundary
      refine ⟨_, hboundary, ?_⟩
      rw [position_of_lt hline (width_take_lt hcount), charsWithin_width_take (Nat.le_of_lt hcount)]
    · obtain ⟨_, ⟨front, back, rfl, rfl⟩, rfl⟩ := ih hinner
      refine ⟨width line + width front, ⟨line ++ front, back, ?_, width_append _ _⟩, ?_⟩
      · rw [List.append_assoc]
      · rw [position_add hline]

/-- **The boundaries of a text and the positions in it are the same order.** Of two boundaries the
smaller one has the smaller position; skipping as many characters as the column says, from the start
of the line, leads from the position of a boundary back to it; and every position in the text is
that of a boundary. Along all offsets, also those inside a character or past the end, positions
never go back. -/
theorem position_isOrderIso (text : List Char) :
    (∀ a b, IsBoundary text a → IsBoundary text b →
      ((ofText text).position a < (ofText text).position b ↔ a < b)) ∧
    (∀ a, IsBoundary text a → (ofText text).offset? ((ofText text).position a) = some a) ∧
    (∀ position : Position, position.IsIn text →
      ∃ a, IsBoundary text a ∧ (ofText text).position a = position) ∧
    ∀ a b, a ≤ b → (ofText text).position a ≤ (ofText text).position b :=
  ⟨fun _ _ => position_lt_position_iff, fun _ => offset?_position,
    fun _ => exists_isBoundary_position_eq, fun _ _ => position_le_position text⟩

/-- The boundary between the two characters that end a line, and the position at the end of the
text, behind a character of two bytes. -/
theorem position_isOrderIso_betweenEnds :
    let text := "a\r\né".toList
    let table := ofText text
    IsBoundary text 1 ∧ IsBoundary text 2 ∧ table.position 1 < table.position 2 ∧
      table.offset? (table.position 2) = some 2 ∧
      Position.IsIn ⟨2, 2⟩ text ∧ (∃ a, IsBoundary text a ∧ table.position a = ⟨2, 2⟩) ∧
      4 ≤ 99 ∧ table.position 4 ≤ table.position 99 := by
  intro text table
  have hone : IsBoundary text 1 := ⟨"a".toList, "\r\né".toList, rfl, rfl⟩
  have htwo : IsBoundary text 2 := ⟨"a\r".toList, "\né".toList, rfl, rfl⟩
  have hin : Position.IsIn ⟨2, 2⟩ text :=
    ⟨by decide, by decide, by decide, "é".toList, by decide, .inr ⟨by decide, by decide⟩⟩
  obtain ⟨hlt, hoffset, honto, hle⟩ := position_isOrderIso text
  exact ⟨hone, htwo, (hlt 1 2 hone htwo).mpr (by decide), hoffset 2 htwo, hin, honto _ hin,
    by decide, hle 4 99 (by decide)⟩

end LineTable

end SourceOutline
