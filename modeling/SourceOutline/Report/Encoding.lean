import SourceOutline.Json.Coding
import SourceOutline.Report

/-!
# Reports as JSON

How reports and their entries are written and read. A report is an object with a list for each
category, and an entry is an object with a member for each field; the line is its `lineno`.

An import has the member `from` only where names are imported, and `null` stands there for no
module. So an import without the member and one with `null` are two different entries.
-/

namespace SourceOutline

open Json

/-! ### Functions -/

namespace FunctionEntry

/-- The plain form. -/
def toJson (entry : FunctionEntry) : Json :=
  .object [("name", .string entry.name), ("lineno", .ofNat entry.line),
    ("args", .ofStrings entry.params)]

/-- The entry with a plain form. -/
def ofJson? (json : Json) : Option FunctionEntry := do
  let name ← (← json.member? "name").string?
  let line ← (← json.member? "lineno").nat?
  let params ← (← json.member? "args").listOf? string?
  pure ⟨name, line, params⟩

/-- How the entry is read. -/
def shape : Reader :=
  .record "FunctionEntry" [.required "name" .string, .required "lineno" .natural,
    .required "args" (.list .string)]

/-- Functions as JSON. -/
def coding : Coding FunctionEntry :=
  ⟨"FunctionEntry", toJson, shape, ofJson?⟩

end FunctionEntry

/-! ### Classes -/

namespace ClassEntry

/-- The plain form. -/
def toJson (entry : ClassEntry) : Json :=
  .object [("name", .string entry.name), ("lineno", .ofNat entry.line)]

/-- The entry with a plain form. -/
def ofJson? (json : Json) : Option ClassEntry := do
  let name ← (← json.member? "name").string?
  let line ← (← json.member? "lineno").nat?
  pure ⟨name, line⟩

/-- How the entry is read. -/
def shape : Reader :=
  .record "ClassEntry" [.required "name" .string, .required "lineno" .natural]

/-- Classes as JSON. -/
def coding : Coding ClassEntry :=
  ⟨"ClassEntry", toJson, shape, ofJson?⟩

end ClassEntry

/-! ### Loops -/

namespace LoopKind

/-- The word for a kind of loop. -/
def word : LoopKind → String
  | for_ => "for"
  | while_ => "while"

/-- The kind of loop that a word stands for. -/
def ofWord? (word : String) : Option LoopKind :=
  if word = "for" then some for_ else if word = "while" then some while_ else none

end LoopKind

namespace LoopEntry

/-- The plain form. -/
def toJson (entry : LoopEntry) : Json :=
  .object [("type", .string entry.kind.word), ("lineno", .ofNat entry.line)]

/-- The entry with a plain form. -/
def ofJson? (json : Json) : Option LoopEntry := do
  let kind ← LoopKind.ofWord? (← (← json.member? "type").string?)
  let line ← (← json.member? "lineno").nat?
  pure ⟨kind, line⟩

/-- How the entry is read. -/
def shape : Reader :=
  .record "LoopEntry" [.required "type" (.word "`for` or `while`" ["for", "while"]),
    .required "lineno" .natural]

/-- Loops as JSON. -/
def coding : Coding LoopEntry :=
  ⟨"LoopEntry", toJson, shape, ofJson?⟩

end LoopEntry

/-! ### Conditions -/

namespace ConditionalEntry

/-- The plain form. -/
def toJson (entry : ConditionalEntry) : Json :=
  .object [("lineno", .ofNat entry.line)]

/-- The entry with a plain form. -/
def ofJson? (json : Json) : Option ConditionalEntry := do
  let line ← (← json.member? "lineno").nat?
  pure ⟨line⟩

/-- How the entry is read. -/
def shape : Reader :=
  .record "ConditionalEntry" [.required "lineno" .natural]

/-- Conditions as JSON. -/
def coding : Coding ConditionalEntry :=
  ⟨"ConditionalEntry", toJson, shape, ofJson?⟩

end ConditionalEntry

/-! ### Assignments -/

namespace AssignmentEntry

/-- The plain form. -/
def toJson (entry : AssignmentEntry) : Json :=
  .object [("targets", .ofStrings entry.targets), ("lineno", .ofNat entry.line)]

/-- The entry with a plain form. -/
def ofJson? (json : Json) : Option AssignmentEntry := do
  let targets ← (← json.member? "targets").listOf? string?
  let line ← (← json.member? "lineno").nat?
  pure ⟨targets, line⟩

/-- How the entry is read. -/
def shape : Reader :=
  .record "AssignmentEntry" [.required "targets" (.list .string), .required "lineno" .natural]

/-- Assignments as JSON. -/
def coding : Coding AssignmentEntry :=
  ⟨"AssignmentEntry", toJson, shape, ofJson?⟩

end AssignmentEntry

/-! ### Imports -/

namespace ImportSource

/-- The members that a source makes: none for whole modules. -/
def members : ImportSource → List (String × Json)
  | none => []
  | unnamed => [("from", .null)]
  | module name => [("from", .string name)]

/-- The source that a member makes, if it is there. -/
def ofMember? : Option Json → Option ImportSource
  | .none => some none
  | some .null => some unnamed
  | some (.string name) => some (module name)
  | some _ => .none

end ImportSource

namespace ImportEntry

/-- The plain form. -/
def toJson (entry : ImportEntry) : Json :=
  .object ([("modules", .ofStrings entry.modules)] ++ entry.source.members ++
    [("lineno", .ofNat entry.line)])

/-- The entry with a plain form. -/
def ofJson? (json : Json) : Option ImportEntry := do
  let modules ← (← json.member? "modules").listOf? string?
  let source ← ImportSource.ofMember? (json.member? "from")
  let line ← (← json.member? "lineno").nat?
  pure ⟨modules, source, line⟩

/-- How the entry is read. -/
def shape : Reader :=
  .record "ImportEntry" [.required "modules" (.list .string), .optional "from" .string,
    .required "lineno" .natural]

/-- Imports as JSON. -/
def coding : Coding ImportEntry :=
  ⟨"ImportEntry", toJson, shape, ofJson?⟩

end ImportEntry

/-! ### Whole reports -/

/-- The plain form of an entry. -/
def Entry.toJson : Entry → Json
  | function entry => entry.toJson
  | classDef entry => entry.toJson
  | loop entry => entry.toJson
  | conditional entry => entry.toJson
  | assignment entry => entry.toJson
  | importing entry => entry.toJson

/-- How the entries of a category are read. -/
def Category.shape : Category → Reader
  | functions => FunctionEntry.shape
  | classes => ClassEntry.shape
  | loops => LoopEntry.shape
  | conditionals => ConditionalEntry.shape
  | assignments => AssignmentEntry.shape
  | imports => ImportEntry.shape
  | comments => FunctionEntry.shape

namespace Report

/-- The plain form: a list for each category, in their order. -/
def toJson (report : Report) : Json :=
  .object (Category.all.map fun category =>
    (category.key, .array ((report.entries category).map Entry.toJson)))

/-- The report with a plain form. -/
def ofJson? (json : Json) : Option Report := do
  let functions ← (← json.member? "functions").listOf? FunctionEntry.ofJson?
  let classes ← (← json.member? "classes").listOf? ClassEntry.ofJson?
  let loops ← (← json.member? "loops").listOf? LoopEntry.ofJson?
  let conditionals ← (← json.member? "conditionals").listOf? ConditionalEntry.ofJson?
  let assignments ← (← json.member? "assignments").listOf? AssignmentEntry.ofJson?
  let imports ← (← json.member? "imports").listOf? ImportEntry.ofJson?
  let comments ← (← json.member? "comments").listOf? FunctionEntry.ofJson?
  pure ⟨functions, classes, loops, conditionals, assignments, imports, comments⟩

/-- How a report is read. -/
def shape : Reader :=
  .record "ExtractionReport" (Category.all.map fun category =>
    .required category.key (.list category.shape))

/-- Reports as JSON. -/
def coding : Coding Report :=
  ⟨"ExtractionReport", toJson, shape, ofJson?⟩

end Report

end SourceOutline
