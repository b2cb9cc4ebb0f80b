import SourceOutline.Analysis

/-!
# Responses

What is answered to someone who asks about a text: an `AnalysisResponse` holds a report or an error,
and a `ValidationResponse` says whether the text is a program and holds an error if it is not. Both
are made of the outcomes of `analyze` and `validate`, and `FileResponse` puts the path of a file
in front.
-/

namespace SourceOutline

variable [CharacterNames]

namespace SyntaxError

/-- The line of the error. -/
def line? (error : SyntaxError) : Option Nat :=
  error.position.map (·.line)

/-- The column of the error. -/
def column? (error : SyntaxError) : Option Nat :=
  error.position.map (·.column)

end SyntaxError

/-- The answer to a question for a report. -/
inductive AnalysisResponse where
  | success (flag : Bool) (report : Report)
  | failure (flag : Bool) (message : String) (line column : Option Nat)
  deriving Repr, DecidableEq

namespace AnalysisResponse

/-- The response for the outcome of an analysis. -/
def ofOutcome : Except SyntaxError Report → AnalysisResponse
  | .ok report => success true report
  | .error error => failure false error.message error.line? error.column?

/-- Whether the response holds a report. -/
def isSuccess : AnalysisResponse → Bool
  | success .. => true
  | failure .. => false

/-- The response for a text. -/
def ofText (text : List Char) : AnalysisResponse :=
  ofOutcome (analyze text)

end AnalysisResponse

/-- An error as a validation reports it. -/
structure ValidationError where
  message : String
  line : Option Nat
  column : Option Nat
  deriving Repr, DecidableEq

/-- The answer to the question whether a text is a program. -/
structure ValidationResponse where
  valid : Bool
  error : Option ValidationError
  deriving Repr, DecidableEq

namespace ValidationResponse

/-- The response for the outcome of a validation. -/
def ofOutcome : Except SyntaxError Unit → ValidationResponse
  | .ok _ => ⟨true, none⟩
  | .error error => ⟨false, some ⟨error.message, error.line?, error.column?⟩⟩

/-- The response for a text. -/
def ofText (text : List Char) : ValidationResponse :=
  ofOutcome (validate text)

end ValidationResponse

/-- A file and the response for its text. -/
structure FileResponse (Response : Type) where
  path : String
  response : Response
  deriving Repr, DecidableEq

/-- A file that was read. -/
structure SourceFile where
  path : String
  text : String
  deriving Repr, DecidableEq

namespace SourceFile

/-- The report about a file. -/
def analysis (file : SourceFile) : FileResponse AnalysisResponse :=
  ⟨file.path, .ofText file.text.toList⟩

/-- Whether a file is a program. -/
def validation (file : SourceFile) : FileResponse ValidationResponse :=
  ⟨file.path, .ofText file.text.toList⟩

/-- The reports about files, in their order. Each file is analysed on its own. -/
def analyses (files : List SourceFile) : List (FileResponse AnalysisResponse) :=
  files.map analysis

end SourceFile

end SourceOutline
