import SourceOutline.Proofs.Outline.Keyword
import SourceOutline.Proofs.Outline.Parts

/-!
# Where decorated definitions are placed

Every statement of a program has its node in the outline (`Outline.ofStmt_mem_walk`). The node of a
part is placed where the part starts, except for a definition with decorators, which is placed where
the search behind the last decorator arrives (`Part.position_node`).

**Main result** (`Outline.position_ofStmt_iff`): that is the position of the definition's own
keyword exactly where the text shows it in the sense of `Outline.ShowsKeyword`. Where a line feed is
missing in front of the keyword, or stands inside the brackets that close a decorator, or is behind
a backslash, the text does not, and the definition is placed on what comes first behind that line
feed.
-/

namespace SourceOutline

namespace Stmt

/-- The decorators in front of a statement; only definitions have any. -/
def decorators : Stmt → List Span
  | function _ _ decorators _ _ _ | classDef _ decorators _ _ => decorators
  | _ => []

/-- The word that a definition begins with. -/
def definingWord : Stmt → List Char
  | function _ isAsync _ _ _ _ => (if isAsync then "async" else "def").toList
  | classDef .. => "class".toList
  | _ => []

/-- How the text of a definition with decorators falls into parts: what ends with the last
decorator, the gap behind it, and what begins with the definition's own word. -/
structure IsPlaced (stmt : Stmt) (front gap code : List Char) : Prop where
  /-- The last decorator ends in front of the gap. -/
  stop : ∃ last, stmt.decorators.getLast? = some last ∧ last.stop = Text.width front
  /-- The definition starts behind it. -/
  start : stmt.start = Text.width (front ++ gap)
  /-- There its word stands. -/
  word : stmt.definingWord <+: code

end Stmt

open Text

namespace Outline

variable {source : Source}

/-! ### The nodes of statements -/

/-- Each statement of a program has its node in the outline. -/
theorem ofStmt_mem_walk {program : List Stmt} {stmt : Stmt} (h : stmt ∈ Stmt.visit program) :
    ofStmt source stmt ∈ (ofProgram source program).walk := by
  rw [Part.walk_ofProgram]
  exact List.mem_cons_of_mem _ (List.mem_map_of_mem (Part.statement_mem_ofProgram.mpr h))

/-! ### The positions of parts -/

/-- A definition is placed where the search for its keyword arrives. -/
theorem position_ofStmt (stmt : Stmt) :
    (ofStmt source stmt).position =
      source.position (keywordOffset source.text stmt.start stmt.decorators) := by
  cases stmt <;> rfl

end Outline

namespace Part

/-- The byte offset where a part starts. -/
def start : Part → Nat
  | statement stmt => stmt.start
  | handler branch | matchCase branch => branch.start

/-- The decorators in front of a part. -/
def decorators : Part → List Span
  | statement stmt => stmt.decorators
  | handler _ | matchCase _ => []

/-- Where the node of a part is placed. -/
def offset (text : List Char) (part : Part) : Nat :=
  Outline.keywordOffset text part.start part.decorators

theorem position_node (source : Source) (part : Part) :
    (part.node source).position = source.position (part.offset source.text) := by
  cases part with
  | statement stmt => exact Outline.position_ofStmt stmt
  | handler branch | matchCase branch => rfl

end Part

namespace Outline

/-! ### The position of a definition -/

/-- The word of a definition begins code. -/
theorem exists_beginsCode {stmt : Stmt} {last : Span} {code : List Char}
    (hlast : stmt.decorators.getLast? = some last) (hword : stmt.definingWord <+: code) :
    ∃ c rest, code = c :: rest ∧ BeginsCode c := by
  obtain ⟨rest, rfl⟩ := hword
  cases stmt with
  | function start isAsync decorators name signature body =>
    cases isAsync with
    | false => exact ⟨'d', "ef".toList ++ rest, rfl, rfl, by decide⟩
    | true => exact ⟨'a', "sync".toList ++ rest, rfl, rfl, by decide⟩
  | classDef start decorators name body => exact ⟨'c', "lass".toList ++ rest, rfl, rfl, by decide⟩
  | _ => exact absurd hlast (Option.some_ne_none last).symm

/-- **A definition with decorators is placed at its own keyword exactly where the text shows it.**
Let the text fall into what ends with the last decorator, the gap behind it and what begins with the
definition's word. Then the node of the definition is one of the outline, and its position is that
of the word if and only if the gap and what follows show the keyword. -/
theorem position_ofStmt_iff {program : List Stmt} {stmt : Stmt} {front gap code : List Char}
    (hstmt : stmt ∈ Stmt.visit program) (hplaced : stmt.IsPlaced front gap code) :
    let source := Source.ofText (front ++ (gap ++ code))
    ofStmt source stmt ∈ (ofProgram source program).walk ∧
      ((ofStmt source stmt).position = source.position (width (front ++ gap)) ↔
        ShowsKeyword gap code) := by
  obtain ⟨last, hlast, hstop⟩ := hplaced.stop
  obtain ⟨c, rest, rfl, hc⟩ := exists_beginsCode hlast hplaced.word
  refine ⟨ofStmt_mem_walk hstmt, ?_⟩
  have hstart : IsBoundary (front ++ (gap ++ c :: rest)) (width (front ++ gap)) :=
    ⟨front ++ gap, c :: rest, (List.append_assoc _ _ _).symm, rfl⟩
  rw [position_ofStmt, hplaced.start, ← keywordOffset_eq_iff hlast hstop hc]
  constructor
  · exact LineTable.position_injective (isBoundary_keywordOffset hlast hstop hstart) hstart
  · exact congrArg _

/-- A gap without a line feed shows no keyword where a line behind it has code. -/
private theorem not_showsKeyword {gap code line : List Char} (hgap : '\n' ∉ gap)
    (hline : line ∈ (split '\n' (gap ++ code)).tail) (hcode : isCodeLine line = true) :
    ¬ ShowsKeyword gap code := by
  rintro (⟨front, margin, rfl, -, -⟩ | hall)
  · exact hgap (List.mem_append_right _ List.mem_cons_self)
  · rw [hall line hline] at hcode
    exact Bool.false_ne_true hcode

/-- A decorated function whose lines end in carriage returns up to its body, which is behind a line
feed. -/
private def mixedLines : List Stmt :=
  [.function 3 false [⟨1, 2⟩] "f" {} [.simple 13]]

/-- Behind a lone carriage return the definition is not placed at its keyword. -/
theorem position_ofStmt_iff_mixedLines :
    let stmt : Stmt := .function 3 false [⟨1, 2⟩] "f" {} [.simple 13]
    let source := Source.ofText "@a\rdef f():\n pass\n".toList
    stmt ∈ Stmt.visit mixedLines ∧
      stmt.IsPlaced "@a".toList "\r".toList "def f():\n pass\n".toList ∧
      ofStmt source stmt ∈ (ofProgram source mixedLines).walk ∧
      (ofStmt source stmt).position ≠ source.position 3 := by
  have hmem : Stmt.function 3 false [⟨1, 2⟩] "f" {} [.simple 13] ∈ Stmt.visit mixedLines := by
    rw [mixedLines, Stmt.visit_cons]
    exact List.mem_cons_self
  have hplaced : Stmt.IsPlaced (.function 3 false [⟨1, 2⟩] "f" {} [.simple 13])
      "@a".toList "\r".toList "def f():\n pass\n".toList :=
    ⟨⟨⟨1, 2⟩, rfl, rfl⟩, rfl, by decide⟩
  obtain ⟨hwalk, hposition⟩ := position_ofStmt_iff hmem hplaced
  have hbody : " pass".toList ∈ (split '\n' ("\r".toList ++ "def f():\n pass\n".toList)).tail := by
    decide
  exact ⟨hmem, hplaced, hwalk, fun h =>
    not_showsKeyword (by decide) hbody (by decide) (hposition.mp h)⟩

end Outline

end SourceOutline
