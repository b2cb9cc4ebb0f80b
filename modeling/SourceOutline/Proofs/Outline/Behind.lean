import SourceOutline.Proofs.Outline.Moving
import SourceOutline.Proofs.Position.LineEnds

/-!
# Programs behind other lines

Lines in front of a program put it further down and do nothing else to its outline. Everything that
the outline asks of the text is answered from an offset on, so it is answered alike wherever the
text begins: what stands behind an offset (`Text.dropBytes_width_add`), which line feed comes next
(`Outline.afterLineFeed?_add`), which code comes first (`Outline.firstCode?_add`) and so where the
search behind the decorators arrives (`Outline.keywordOffset_append_front`).

Only the lines are counted from the start of the text. Behind a line feed a new line begins,
whatever follows, so those in front remain the lines they are (`Text.IsLine.append`) and all others
are as many lines further down (`LineTable.position_append_front`).

**Main result** (`Outline.ofProgram_append_front`): whatever ends in a line feed can be put in front
of a text, and the outline of its program is the same, with the lines of its positions moved by the
number of line ends in front.
-/

namespace SourceOutline

namespace Text

variable {line rest : List Char}

/-- A line stays one, whatever is put behind the text, if the text ends in a line feed: only behind
a carriage return could it go on. -/
theorem IsLine.append (h : IsLine line rest) (hfeed : (line ++ rest).getLast? = some '\n')
    (text : List Char) : IsLine line (rest ++ text) := by
  induction h with
  | feed rest => exact .feed _
  | both rest => exact .both _
  | @carriage rest h =>
    refine .carriage ?_
    cases rest with
    | nil => exact absurd hfeed (by decide)
    | cons c rest => exact h
  | @cons c line rest hc hreturn h ih =>
    refine .cons hc hreturn (ih ?_)
    have hne : line ++ rest ≠ [] := List.append_ne_nil_of_left_ne_nil
      (List.ne_nil_of_length_pos h.length_pos) rest
    rwa [List.cons_append, List.getLast?_cons_of_ne_nil hne] at hfeed

end Text

open Text

/-! ### Positions -/

/-- **Behind lines all is as many lines further down.** -/
theorem LineTable.position_append_front {front : List Char} (hfront : front.getLast? = some '\n')
    (text : List Char) (offset : Nat) :
    (ofText (front ++ text)).position (width front + offset) =
      ((ofText text).position offset).below (lineEnds front).length := by
  induction front using byLines with
  | last line h => exact absurd rfl (h '\n' (List.mem_of_getLast? hfront)).1
  | cons line rest h ih =>
    have hposition : (ofText (line ++ rest ++ text)).position (width (line ++ rest) + offset) =
        ((ofText (rest ++ text)).position (width rest + offset)).below 1 := by
      rw [List.append_assoc, width_append, Nat.add_assoc]
      exact position_add (h.append hfront text) _
    have hends : (lineEnds (line ++ rest)).length = (lineEnds rest).length + 1 := by
      rw [h.lineEnds_append, List.length_cons, List.length_map]
    rw [hposition, hends]
    cases rest with
    | nil =>
      rw [List.nil_append, width_nil, Nat.zero_add]
      rfl
    | cons c rest =>
      have hrest : (c :: rest).getLast? = some '\n' := by
        rw [← hfront, List.getLast?_append, List.getLast?_cons, Option.some_or]
      rw [ih hrest, Position.below_below]

namespace Outline

/-! ### Where decorated definitions begin -/

/-- **The search behind the decorators arrives at the same place**, behind what is in front. -/
theorem keywordOffset_append_front (front text : List Char) (start : Nat)
    (decorators : List Span) :
    keywordOffset (front ++ text) (width front + start)
        (decorators.map (Span.moved (width front + ·))) =
      width front + keywordOffset text start decorators := by
  rw [keywordOffset, keywordOffset, List.getLast?_map]
  cases decorators.getLast? with
  | none => rfl
  | some last =>
    simp only [Option.map_some, Span.moved, dropBytes_width_add, afterLineFeed?_add]
    cases afterLineFeed? last.stop (dropBytes last.stop text) with
    | none => rfl
    | some found =>
      simp only [Option.map_some, firstCode?_add]
      cases firstCode? found.1 [] found.2 <;> rfl

/-! ### Outlines -/

variable {front : List Char}

/-- An outline finds the same in a text and behind lines. -/
theorem agrees_append_front (hfront : front.getLast? = some '\n') (text : List Char) :
    (Source.ofText text).Agrees (width front + ·) (.below (lineEnds front).length)
      (.ofText (front ++ text)) where
  position := LineTable.position_append_front hfront text
  elif offset := by
    rw [standsAt, standsAt, Source.ofText, Source.ofText, dropBytes_width_add]

/-- **Lines in front of a program only put its outline further down.** Behind a text that ends in a
line feed the outline of a program is what it is without it, except that all nodes but the root
are as many lines further down as there are line ends in front. -/
theorem ofProgram_append_front (hfront : front.getLast? = some '\n') (text : List Char)
    (program : List Stmt) :
    ofProgram (.ofText (front ++ text)) (Stmt.movedAll (width front + ·) program) =
      .mk .module {} ((ofProgram (.ofText text) program).children.map
        (Node.mapPosition (.below (lineEnds front).length))) := by
  rw [ofProgram, Part.ofStmts_movedAll (agrees_append_front hfront text) fun part _ => ?_]
  · rfl
  · rw [Part.offset, Part.start_moved, Part.decorators_moved]
    exact keywordOffset_append_front front text part.start part.decorators

/-- Three lines, of which each ends in its own way. -/
private def mixedFront : List Char :=
  "# é\r\n\r'x'\n".toList

/-- A decorated function whose body has an `elif`. -/
private def decoratedText : List Char :=
  "@a # b\n\n def f():\n  if c: pass\n  elif d: pass\n".toList

private def decoratedProgram : List Stmt :=
  [.function 9 false [⟨1, 2⟩] "f" {}
    [.conditional 20 false [.simple 26] [.conditional 33 true [.simple 41] []]]]

/-- The function is on the third line of its text, and on the sixth behind three lines. -/
theorem ofProgram_append_front_decorated :
    mixedFront.getLast? = some '\n' ∧
      ofProgram (.ofText (mixedFront ++ decoratedText))
          (Stmt.movedAll (width mixedFront + ·) decoratedProgram) =
        .mk .module {} [.mk (.function "f" []) ⟨6, 2⟩ [.mk .conditional ⟨7, 3⟩
          [.mk (.other .statement) ⟨7, 9⟩ [], .mk (.other .elifClause) ⟨8, 3⟩
            [.mk (.other .statement) ⟨8, 11⟩ []]]]] := by
  have hfront : mixedFront.getLast? = some '\n' := by decide
  refine ⟨hfront, (ofProgram_append_front hfront decoratedText decoratedProgram).trans ?_⟩
  rfl

end Outline

end SourceOutline
