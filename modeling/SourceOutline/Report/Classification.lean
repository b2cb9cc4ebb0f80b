import SourceOutline.Report
import SourceOutline.Node

/-!
# Classifying nodes

Which entries a node of an outline makes, and in which categories. A table of rules says so: each
names a tag, a category and how the entry is made of a node with that tag. Two rules may have the
same tag, as those for functions have.

`Report.ofTree` collects the entries of all nodes of a tree.
-/

namespace SourceOutline

/-- How nodes with one tag make entries of one category. -/
structure Rule where
  category : Category
  tag : Node.Tag
  /-- The entry of a node; there is none where the node is not of the kind, or has nothing to
  report. -/
  entry? : Node → Option Entry

namespace Rule

/-- The entry of a function. -/
def functionEntry? (node : Node) : Option Entry :=
  match node.kind with
  | .function name params => some (.function ⟨name, node.position.line, params⟩)
  | _ => none

/-- The entry of a class. -/
def classEntry? (node : Node) : Option Entry :=
  match node.kind with
  | .classDef name => some (.classDef ⟨name, node.position.line⟩)
  | _ => none

/-- The entry of a `for`. -/
def forEntry? (node : Node) : Option Entry :=
  match node.kind with
  | .forLoop => some (.loop ⟨.for_, node.position.line⟩)
  | _ => none

/-- The entry of a `while`. -/
def whileEntry? (node : Node) : Option Entry :=
  match node.kind with
  | .whileLoop => some (.loop ⟨.while_, node.position.line⟩)
  | _ => none

/-- The entry of a condition. -/
def conditionalEntry? (node : Node) : Option Entry :=
  match node.kind with
  | .conditional => some (.conditional ⟨node.position.line⟩)
  | _ => none

/-- The entry of an assignment, if one of its targets is a name. -/
def assignmentEntry? (node : Node) : Option Entry :=
  match node.kind with
  | .assign targets =>
    match targets.filterMap TargetShape.name? with
    | [] => none
    | names => some (.assignment ⟨names, node.position.line⟩)
  | _ => none

/-- The entry of an import of modules. -/
def modulesEntry? (node : Node) : Option Entry :=
  match node.kind with
  | .importModules modules => some (.importing ⟨modules, .none, node.position.line⟩)
  | _ => none

/-- Where names are imported from, by the module if one is named. -/
def sourceOf : Option String → ImportSource
  | none => .unnamed
  | some name => .module name

/-- The entry of an import of names. -/
def namesEntry? (node : Node) : Option Entry :=
  match node.kind with
  | .importFrom module names => some (.importing ⟨names, sourceOf module, node.position.line⟩)
  | _ => none

/-- All rules. -/
def all : List Rule :=
  [⟨.functions, .function, functionEntry?⟩,
    ⟨.comments, .function, functionEntry?⟩,
    ⟨.classes, .classDef, classEntry?⟩,
    ⟨.loops, .forLoop, forEntry?⟩,
    ⟨.loops, .whileLoop, whileEntry?⟩,
    ⟨.conditionals, .conditional, conditionalEntry?⟩,
    ⟨.assignments, .assign, assignmentEntry?⟩,
    ⟨.imports, .importModules, modulesEntry?⟩,
    ⟨.imports, .importFrom, namesEntry?⟩]

end Rule

/-- The entries of a node with their categories, by the rules for its tag. -/
def Node.classify (node : Node) : List (Category × Entry) :=
  (Rule.all.filter (·.tag == node.kind.tag)).filterMap fun rule =>
    (rule.entry? node).map (rule.category, ·)

/-- The report of a tree: the entries of its nodes, filed in the order of the nodes. -/
def Report.ofTree (tree : Node) : Report :=
  tree.walk.foldl (fun report node => (report.pushAll node.classify).1) {}

end SourceOutline
