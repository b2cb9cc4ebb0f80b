/-!
# Reports

What a report says about a program: seven sequences of entries, one for each `Category`, each in
the order in which the entries were filed. `Report.push` files one entry and refuses it where its
kind is not that of the category. Function entries belong to two categories, the functions and the
comments; every other kind of entry belongs to one (`Entry.fits`).
-/

namespace SourceOutline

/-- A function and its ordinary positional parameters. -/
structure FunctionEntry where
  name : String
  line : Nat
  params : List String
  deriving Repr, DecidableEq

/-- A class. -/
structure ClassEntry where
  name : String
  line : Nat
  deriving Repr, DecidableEq

/-- The two kinds of loops. -/
inductive LoopKind where
  | for_ | while_
  deriving Repr, DecidableEq

/-- A loop. -/
structure LoopEntry where
  kind : LoopKind
  line : Nat
  deriving Repr, DecidableEq

/-- A condition. -/
structure ConditionalEntry where
  line : Nat
  deriving Repr, DecidableEq

/-- An assignment to names. -/
structure AssignmentEntry where
  targets : List String
  line : Nat
  deriving Repr, DecidableEq

/-- Where names are imported from. -/
inductive ImportSource where
  /-- Whole modules are imported. -/
  | none
  /-- Names are imported, and no module is named. -/
  | unnamed
  /-- Names are imported from a module. -/
  | module (name : String)
  deriving Repr, DecidableEq

/-- An import. -/
structure ImportEntry where
  modules : List String
  source : ImportSource
  line : Nat
  deriving Repr, DecidableEq

/-- One entry of any kind. -/
inductive Entry where
  | function (entry : FunctionEntry)
  | classDef (entry : ClassEntry)
  | loop (entry : LoopEntry)
  | conditional (entry : ConditionalEntry)
  | assignment (entry : AssignmentEntry)
  | importing (entry : ImportEntry)
  deriving Repr, DecidableEq

/-- The parts of a report. -/
inductive Category where
  | functions | classes | loops | conditionals | assignments | imports | comments
  deriving Repr, DecidableEq

namespace Category

/-- All categories, in the order of a written report. -/
def all : List Category :=
  [functions, classes, loops, conditionals, assignments, imports, comments]

/-- The name of the category in a written report. -/
def key : Category → String
  | functions => "functions"
  | classes => "classes"
  | loops => "loops"
  | conditionals => "conditionals"
  | assignments => "assignments"
  | imports => "imports"
  | comments => "comments"

end Category

/-- Whether an entry belongs to a category. -/
def Entry.fits : Category → Entry → Bool
  | .functions, .function _ => true
  | .comments, .function _ => true
  | .classes, .classDef _ => true
  | .loops, .loop _ => true
  | .conditionals, .conditional _ => true
  | .assignments, .assignment _ => true
  | .imports, .importing _ => true
  | _, _ => false

/-- What is known about a program. -/
structure Report where
  functions : List FunctionEntry := []
  classes : List ClassEntry := []
  loops : List LoopEntry := []
  conditionals : List ConditionalEntry := []
  assignments : List AssignmentEntry := []
  imports : List ImportEntry := []
  comments : List FunctionEntry := []
  deriving Repr, DecidableEq

namespace Report

/-- The entries of a category. -/
def entries (report : Report) : Category → List Entry
  | .functions => report.functions.map .function
  | .classes => report.classes.map .classDef
  | .loops => report.loops.map .loop
  | .conditionals => report.conditionals.map .conditional
  | .assignments => report.assignments.map .assignment
  | .imports => report.imports.map .importing
  | .comments => report.comments.map .function

/-- The number of entries of a category. -/
def count (report : Report) (category : Category) : Nat :=
  (report.entries category).length

/-- Whether no category has an entry. -/
def isEmpty (report : Report) : Bool :=
  Category.all.all fun category => report.count category == 0

/-- Files an entry at the end of a category. Where it does not belong there, the report stays as it
is and the answer is `false`. -/
def push (report : Report) (category : Category) (entry : Entry) : Report × Bool :=
  match category, entry with
  | .functions, .function e => ({ report with functions := report.functions ++ [e] }, true)
  | .comments, .function e => ({ report with comments := report.comments ++ [e] }, true)
  | .classes, .classDef e => ({ report with classes := report.classes ++ [e] }, true)
  | .loops, .loop e => ({ report with loops := report.loops ++ [e] }, true)
  | .conditionals, .conditional e =>
    ({ report with conditionals := report.conditionals ++ [e] }, true)
  | .assignments, .assignment e =>
    ({ report with assignments := report.assignments ++ [e] }, true)
  | .imports, .importing e => ({ report with imports := report.imports ++ [e] }, true)
  | _, _ => (report, false)

/-- Files entries one after the other, and says of each whether it was taken. -/
def pushAll (report : Report) : List (Category × Entry) → Report × List Bool
  | [] => (report, [])
  | (category, entry) :: rest =>
    let (report, taken) := report.push category entry
    let (report, others) := pushAll report rest
    (report, taken :: others)

end Report

end SourceOutline
