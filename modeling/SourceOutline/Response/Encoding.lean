import SourceOutline.Report.Encoding
import SourceOutline.Response

/-!
# Responses as JSON

How responses are written and read. An `AnalysisResponse` has no mark that tells a report from an
error: where a text has the members of both it is taken for the one with a report. The response for
a file has the path as its first member, followed by the members of the response.
-/

namespace SourceOutline

open Json

/-! ### Analyses -/

namespace AnalysisResponse

/-- The plain form. -/
def toJson : AnalysisResponse → Json
  | success flag report => .object [("success", .bool flag), ("ast", report.toJson)]
  | failure flag message line column =>
    .object [("success", .bool flag), ("error", .string message), ("lineno", ofOption ofNat line),
      ("col_offset", ofOption ofNat column)]

/-- The response with a report that has a plain form. -/
def successOfJson? (json : Json) : Option AnalysisResponse := do
  let flag ← (← json.member? "success").bool?
  let report ← Report.ofJson? (← json.member? "ast")
  pure (success flag report)

/-- The response with an error that has a plain form. -/
def failureOfJson? (json : Json) : Option AnalysisResponse := do
  let flag ← (← json.member? "success").bool?
  let message ← (← json.member? "error").string?
  let line ← (← json.member? "lineno").optionOf? nat?
  let column ← (← json.member? "col_offset").optionOf? nat?
  pure (failure flag message line column)

/-- The response with a plain form. -/
def ofJson? (json : Json) : Option AnalysisResponse :=
  (successOfJson? json).or (failureOfJson? json)

/-- How a response is read. -/
def shape : Reader :=
  .oneOf "untagged enum AnalysisResponse"
    [.object "variant AnalysisResponse::Success"
      [.required "success" .boolean, .required "ast" Report.shape],
    .object "variant AnalysisResponse::Failure"
      [.required "success" .boolean, .required "error" .string, .nullable "lineno" .natural,
        .nullable "col_offset" .natural]]

/-- Analyses as JSON. -/
def coding : Coding AnalysisResponse :=
  ⟨"untagged enum AnalysisResponse", toJson, shape, ofJson?⟩

end AnalysisResponse

/-! ### Validations -/

namespace ValidationError

/-- The plain form. -/
def toJson (error : ValidationError) : Json :=
  .object [("message", .string error.message), ("line", ofOption ofNat error.line),
    ("offset", ofOption ofNat error.column)]

/-- The error with a plain form. -/
def ofJson? (json : Json) : Option ValidationError := do
  let message ← (← json.member? "message").string?
  let line ← (← json.member? "line").optionOf? nat?
  let column ← (← json.member? "offset").optionOf? nat?
  pure ⟨message, line, column⟩

/-- How an error is read. -/
def shape : Reader :=
  .record "ValidationErrorDto" [.required "message" .string, .nullable "line" .natural,
    .nullable "offset" .natural]

end ValidationError

namespace ValidationResponse

/-- The plain form. -/
def toJson (response : ValidationResponse) : Json :=
  .object [("valid", .bool response.valid),
    ("error", ofOption ValidationError.toJson response.error)]

/-- The response with a plain form. -/
def ofJson? (json : Json) : Option ValidationResponse := do
  let valid ← (← json.member? "valid").bool?
  let error ← (← json.member? "error").optionOf? ValidationError.ofJson?
  pure ⟨valid, error⟩

/-- How a response is read. -/
def shape : Reader :=
  .record "ValidationResponse" [.required "valid" .boolean,
    .nullable "error" ValidationError.shape]

/-- Validations as JSON. -/
def coding : Coding ValidationResponse :=
  ⟨"ValidationResponse", toJson, shape, ofJson?⟩

end ValidationResponse

/-! ### Files -/

/-- The plain form of the response for a file: the path, and then the members of the response. -/
def FileResponse.toJson {Response : Type} (write : Response → Json)
    (file : FileResponse Response) : Json :=
  .cons "path" (.string file.path) (write file.response)

end SourceOutline
