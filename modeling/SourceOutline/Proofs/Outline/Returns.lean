import SourceOutline.Proofs.Outline.Moving
import SourceOutline.Proofs.Position.LineEnds
import SourceOutline.Proofs.Text.Returns

/-!
# Outlines do not depend on the line ends

A text can end its lines by line feeds, or by carriage returns and line feeds. A line then starts
further behind, but with the same characters, so each place keeps its position
(`LineTable.position_withReturns`). The search behind the decorators of a definition reads lines up
to their line feeds, and finds blanks in front of these that are no code; so it arrives at the same
place (`Outline.keywordOffset_withReturns`).

**Main result** (`Outline.ofProgram_withReturns`): the outline of a program is the same with either
line ends, and so is what is wrong with its targets, down to the position.

The decorators have to end between characters of the text. From inside of one the search would lose
count of the bytes.
-/

namespace SourceOutline

open Text

namespace Text

/-- Without carriage returns a line ends in a line feed, in front of which one can be put. -/
theorem IsLine.exists_lineFeed {line rest : List Char} (h : IsLine line rest)
    (hreturn : '\r' ∉ line) (rest' : List Char) :
    ∃ body, line = body ++ ['\n'] ∧ '\n' ∉ body ∧ IsLine (body ++ ['\r', '\n']) rest' := by
  induction h with
  | feed rest => exact ⟨[], rfl, List.not_mem_nil, .both rest'⟩
  | both rest | carriage h => exact absurd List.mem_cons_self hreturn
  | @cons c line rest hc hcreturn h ih =>
    rw [List.mem_cons, not_or] at hreturn
    obtain ⟨body, rfl, hbody, hline⟩ := ih hreturn.2
    refine ⟨c :: body, rfl, ?_, .cons hc hcreturn hline⟩
    rw [List.mem_cons, not_or]
    exact ⟨Ne.symm hc, hbody⟩

end Text

/-! ### Positions -/

/-- **Each place keeps its position.** -/
theorem LineTable.position_withReturns {text : List Char} (hreturn : '\r' ∉ text) (offset : Nat) :
    (ofText (withReturns text)).position (offsetWithReturns text offset) =
      (ofText text).position offset := by
  induction text using byLines generalizing offset with
  | last line h =>
    have hfeed : '\n' ∉ line := fun hmem => (h '\n' hmem).1 rfl
    rw [withReturns_of_notMem hfeed, offsetWithReturns_of_notMem hfeed]
  | cons line rest h ih =>
    rw [List.mem_append, not_or] at hreturn
    obtain ⟨body, rfl, hbody, hline⟩ := h.exists_lineFeed hreturn.1 (withReturns rest)
    have hbreak : withReturns (body ++ ['\n']) = body ++ ['\r', '\n'] := by
      rw [withReturns_append, withReturns_of_notMem hbody]
      rfl
    rcases Nat.lt_or_ge offset (width (body ++ ['\n'])) with hlt | hge
    · -- On the first line the place is not moved, and the same characters are in front of it.
      have hle : offset ≤ width body := by
        rw [width_append] at hlt
        exact Nat.le_of_lt_succ hlt
      have hlt' : offset < width (body ++ ['\r', '\n']) := by
        rw [width_append]
        exact Nat.lt_of_le_of_lt hle (Nat.lt_add_of_pos_right (by decide))
      have hoffset : offsetWithReturns (body ++ ['\n'] ++ rest) offset = offset := by
        rw [List.append_assoc, offsetWithReturns_of_le hbody hle]
      have hchars : charsWithin offset (body ++ ['\r', '\n']) =
          charsWithin offset (body ++ ['\n']) := by
        rw [charsWithin_append_of_le hle, charsWithin_append_of_le hle]
      rw [hoffset, withReturns_append, hbreak]
      calc (ofText (body ++ ['\r', '\n'] ++ withReturns rest)).position offset
          = ⟨1, charsWithin offset (body ++ ['\r', '\n']) + 1⟩ := position_of_lt hline hlt'
        _ = ⟨1, charsWithin offset (body ++ ['\n']) + 1⟩ := by rw [hchars]
        _ = (ofText (body ++ ['\n'] ++ rest)).position offset := (position_of_lt h hlt).symm
    · obtain ⟨behind, rfl⟩ := Nat.exists_eq_add_of_le hge
      rw [offsetWithReturns_width_add, withReturns_append, hbreak]
      calc (ofText (body ++ ['\r', '\n'] ++ withReturns rest)).position
            (width (body ++ ['\r', '\n']) + offsetWithReturns rest behind)
          = ((ofText (withReturns rest)).position (offsetWithReturns rest behind)).below 1 :=
            position_add hline _
        _ = ((ofText rest).position behind).below 1 := by rw [ih hreturn.2]
        _ = (ofText (body ++ ['\n'] ++ rest)).position (width (body ++ ['\n']) + behind) :=
            (position_add h behind).symm

namespace Outline

/-! ### Where decorated definitions begin -/

theorem isCodeLine_append_return (line : List Char) :
    isCodeLine (line ++ ['\r']) = isCodeLine line :=
  isCodeLine_append_blank (by decide) line

/-- A carriage return behind a line does not move its code. -/
private theorem codeOffset_append_return {line : List Char} (hcode : isCodeLine line = true)
    (offset : Nat) : codeOffset offset (line ++ ['\r']) = codeOffset offset line := by
  obtain ⟨blanks, c, more, rfl, hblanks, hc⟩ := isCodeLine_iff.mp hcode
  rw [List.append_assoc, List.cons_append, codeOffset_append_cons _ hblanks hc.1,
    codeOffset_append_cons _ hblanks hc.1]

/-- **The first code is at the same place.** -/
theorem firstCode?_withReturns (text : List Char) :
    firstCode? 0 [] (withReturns text) = (firstCode? 0 [] text).map (offsetWithReturns text) := by
  induction text using alongSearch with
  | code line rest hline hcode hrest =>
    have hle : codeOffset 0 line ≤ width line := by
      rw [codeOffset, Nat.zero_add]
      exact Nat.sub_le _ _
    rw [firstCode?_of_code hline hcode hrest, Option.map_some, offsetWithReturns_of_le hline hle]
    rcases hrest with rfl | ⟨behind, rfl⟩
    · have h := firstCode?_of_code hline hcode (.inl rfl) 0
      rwa [withReturns_append, withReturns_of_notMem hline]
    · have hcode' : isCodeLine (line ++ ['\r']) = true := by rw [isCodeLine_append_return, hcode]
      rw [withReturns_append_lineFeed hline,
        firstCode?_of_code (notMem_append_return hline) hcode' (.inr ⟨_, rfl⟩),
        codeOffset_append_return hcode]
  | last line hline hcode =>
    rw [withReturns_of_notMem hline, firstCode?_lastLine hline hcode, Option.map_none]
  | next line behind hline hcode ih =>
    -- Both searches go on behind the line feed.
    have hcode' : isCodeLine (line ++ ['\r']) = false := by rw [isCodeLine_append_return, hcode]
    have hskip : firstCode? 0 [] (line ++ '\n' :: behind) =
        (firstCode? 0 [] behind).map (width (line ++ ['\n']) + ·) := by
      rw [firstCode?_of_not_code hline hcode, Nat.zero_add, firstCode?_eq_map]
    have hskip' : firstCode? 0 [] (line ++ ['\r'] ++ '\n' :: withReturns behind) =
        (firstCode? 0 [] (withReturns behind)).map (width (line ++ ['\r'] ++ ['\n']) + ·) := by
      rw [firstCode?_of_not_code (notMem_append_return hline) hcode', Nat.zero_add,
        firstCode?_eq_map]
    rw [withReturns_append_lineFeed hline, hskip', ih, hskip, Option.map_map, Option.map_map]
    exact congrArg (Option.map · _) (funext fun found =>
      (offsetWithReturns_append_lineFeed hline behind found).symm)

/-- **The search behind the decorators arrives at the same place**, if the last one ends between
characters. -/
theorem keywordOffset_withReturns {text : List Char} {decorators : List Span}
    (hstop : ∀ last ∈ decorators.getLast?, IsBoundary text last.stop) (start : Nat) :
    keywordOffset (withReturns text) (offsetWithReturns text start)
        (decorators.map (Span.moved (offsetWithReturns text))) =
      offsetWithReturns text (keywordOffset text start decorators) := by
  rw [keywordOffset, keywordOffset, List.getLast?_map]
  cases hlast : decorators.getLast? with
  | none => rfl
  | some last =>
    obtain ⟨front, behind, rfl, hfront⟩ := hstop last hlast
    simp only [Option.map_some, Span.moved, ← hfront, offsetWithReturns_width, withReturns_append,
      dropBytes_width_append]
    obtain ⟨line, rest, rfl, hline, rfl | ⟨rest, rfl⟩⟩ := exists_line behind
    · rw [List.append_nil, withReturns_of_notMem hline, afterLineFeed?_of_notMem hline,
        afterLineFeed?_of_notMem hline]
    · rw [withReturns_append_lineFeed hline, afterLineFeed?_append (notMem_append_return hline),
        afterLineFeed?_append hline]
      simp only
      rw [firstCode?_eq_map, firstCode?_withReturns, firstCode?_eq_map (width front + _)]
      cases firstCode? 0 [] rest with
      | none => rfl
      | some found =>
        simp only [Option.map_some, Option.getD_some]
        rw [Nat.add_assoc, ← offsetWithReturns_append_lineFeed hline, Nat.add_assoc,
          offsetWithReturns_width_add]

/-! ### Outlines -/

variable {text : List Char}

/-- An outline finds the same with either line ends. -/
theorem agrees_withReturns (hreturn : '\r' ∉ text) :
    (Source.ofText text).Agrees (offsetWithReturns text) id (.ofText (withReturns text)) where
  position := LineTable.position_withReturns hreturn
  elif := standsAt_withReturns (by decide) (by decide) text

/-- **The line ends of a text do not matter.** Let each line feed of a text without carriage returns
get one in front, and let each offset of its program be moved by the line feeds before it. Then the
outline of the program is the same, and so is the fault of its targets with its position. -/
theorem ofProgram_withReturns (hreturn : '\r' ∉ text) {program : List Stmt}
    (hdecorators : ∀ stmt ∈ Stmt.visit program, ∀ last ∈ stmt.decorators.getLast?,
      IsBoundary text last.stop) :
    let source := Source.ofText text
    let source' := Source.ofText (withReturns text)
    let program' := Stmt.movedAll (offsetWithReturns text) program
    ofProgram source' program' = ofProgram source program ∧
      (firstInvalid? program').map (SyntaxError.ofTarget source') =
        (firstInvalid? program).map (SyntaxError.ofTarget source) := by
  intro source source' program'
  have hagrees : source.Agrees (offsetWithReturns text) id source' := agrees_withReturns hreturn
  constructor
  · have hoffset : ∀ part ∈ Part.ofProgram program,
        (part.moved (offsetWithReturns text)).offset source'.text =
          offsetWithReturns text (part.offset source.text) := by
      intro part hpart
      rw [Part.offset, Part.start_moved, Part.decorators_moved]
      refine keywordOffset_withReturns (fun last hlast => ?_) part.start
      cases part with
      | statement stmt => exact hdecorators stmt (Part.statement_mem_ofProgram.mp hpart) last hlast
      | handler branch | matchCase branch => exact absurd hlast (Option.not_mem_none last)
    rw [ofProgram, Part.ofStmts_movedAll hagrees hoffset, ← Node.mapPositions_eq_map,
      Node.mapPositions_id]
    rfl
  · rw [firstInvalid?_movedAll, Option.map_map]
    exact congrArg (Option.map · _) (funext (SyntaxError.ofTarget_moved hagrees))

/-- A decorated function behind an empty line and a comment, with an `elif` in its body, and a value
that is assigned to. -/
private def commentedText : List Char :=
  "@é # b\n\n# c\ndef f():\n  if c: pass\n  elif d: pass\n1 = x\n".toList

private def commentedProgram : List Stmt :=
  [.function 13 false [⟨1, 3⟩] "f" {}
      [.conditional 24 false [.simple 30] [.conditional 37 true [.simple 45] []]],
    .assign 50 [.other ⟨50, 51⟩ .literal]]

/-- The function is on the fourth line, and the fault on the seventh, with either line ends. -/
theorem ofProgram_withReturns_commented :
    '\r' ∉ commentedText ∧
      (∀ stmt ∈ Stmt.visit commentedProgram, ∀ last ∈ stmt.decorators.getLast?,
        IsBoundary commentedText last.stop) ∧
      let source := Source.ofText (withReturns commentedText)
      let program := Stmt.movedAll (offsetWithReturns commentedText) commentedProgram
      ofProgram source program =
          .mk .module {} [.mk (.function "f" []) ⟨4, 1⟩ [.mk .conditional ⟨5, 3⟩
            [.mk (.other .statement) ⟨5, 9⟩ [], .mk (.other .elifClause) ⟨6, 3⟩
              [.mk (.other .statement) ⟨6, 11⟩ []]]], .mk (.assign [.other]) ⟨7, 1⟩ []] ∧
        (firstInvalid? program).map (SyntaxError.ofTarget source) =
          some ⟨"cannot assign to literal", some ⟨7, 1⟩⟩ := by
  have hreturn : '\r' ∉ commentedText := by decide
  have hstop : IsBoundary commentedText 3 :=
    ⟨"@é".toList, commentedText.drop 2, by decide, by decide⟩
  have hdecorators : ∀ stmt ∈ Stmt.visit commentedProgram, ∀ last ∈ stmt.decorators.getLast?,
      IsBoundary commentedText last.stop := by
    simpa [commentedProgram, Stmt.visit_cons, Stmt.nested, Stmt.decorators] using hstop
  have hinvalid : firstInvalid? commentedProgram = some ⟨.other ⟨50, 51⟩ .literal, .store⟩ := by
    simp only [firstInvalid?, commentedProgram, Stmt.visit_cons, Stmt.visit_nil, Stmt.nested,
      List.cons_append, List.nil_append, List.append_nil]
    rfl
  obtain ⟨houtline, hfault⟩ := ofProgram_withReturns hreturn hdecorators
  refine ⟨hreturn, hdecorators, houtline.trans rfl, hfault.trans ?_⟩
  rw [hinvalid]
  rfl

end Outline

end SourceOutline
