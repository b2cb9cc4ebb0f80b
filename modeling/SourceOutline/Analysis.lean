import SourceOutline.Grammar.Statement
import SourceOutline.Outline
import SourceOutline.Report.Classification
import SourceOutline.Target

/-!
# Analysing a program

The three questions that can be asked about a text: whether it is a program (`validate`), what its
outline is (`parse`), and what there is to report about it (`analyze`). All three give the same
answer where it is none, a `SyntaxError` with the position of the fault. It is found by the
grammar, or else among the targets of the statements.
-/

namespace SourceOutline

variable [CharacterNames]

/-- What is wrong with a text, and where, if that is known. -/
structure SyntaxError where
  message : String
  position : Option Position
  deriving Repr, DecidableEq

namespace SyntaxError

/-- A fault of the grammar, located in its source. -/
def ofFault (source : Source) (fault : Fault) : SyntaxError :=
  ⟨fault.cause.message, some (source.position fault.offset)⟩

/-- An invalid target, located in its source. -/
def ofTarget (source : Source) (invalid : InvalidTarget) : SyntaxError :=
  ⟨invalid.message, some (source.position invalid.offset)⟩

end SyntaxError

/-- The statements of a program. -/
def Source.program (source : Source) : Except SyntaxError (List Stmt) :=
  match Program.ofText source.text with
  | .error fault => .error (.ofFault source fault)
  | .ok program =>
    match firstInvalid? program with
    | some invalid => .error (.ofTarget source invalid)
    | none => .ok program

/-- The outline of a text. -/
def parse (text : List Char) : Except SyntaxError Node :=
  let source := Source.ofText text
  source.program.map (Outline.ofProgram source)

/-- What there is to report about a text. -/
def analyze (text : List Char) : Except SyntaxError Report :=
  (parse text).map Report.ofTree

/-- Whether a text is a program. -/
def validate (text : List Char) : Except SyntaxError Unit :=
  (Source.ofText text).program.map fun _ => ()

end SourceOutline
