import SourceOutline.Report.Classification
import SourceOutline.Proofs.Node.Traversal

/-!
# Filing entries into reports

Reports can be put **one behind the other**, category by category (`Report.append`), and the empty
report is neutral to that. Filing entries into a report is the same as filing them into an empty one
and putting the result behind (`pushAll_fst`), so the report of a list of nodes is built up node by
node (`ofNodes_cons`, `ofNodes_append`), in whatever way the list came about.

What a single node adds depends on its kind only (`entriesOf_mk`): this is the one place where the
table of rules is evaluated.
-/

namespace SourceOutline

namespace Report

attribute [ext] Report

/-- The entries of one report, and behind them those of another, in each category. -/
protected def append (front back : Report) : Report where
  functions := front.functions ++ back.functions
  classes := front.classes ++ back.classes
  loops := front.loops ++ back.loops
  conditionals := front.conditionals ++ back.conditionals
  assignments := front.assignments ++ back.assignments
  imports := front.imports ++ back.imports
  comments := front.comments ++ back.comments

instance : Append Report := ⟨Report.append⟩

theorem append_def (front back : Report) : front ++ back = front.append back := rfl

@[simp]
theorem empty_append (report : Report) : ({} : Report) ++ report = report := by
  ext1 <;> exact List.nil_append _

@[simp]
theorem append_empty (report : Report) : report ++ ({} : Report) = report := by
  ext1 <;> exact List.append_nil _

theorem append_assoc (first second third : Report) :
    first ++ second ++ third = first ++ (second ++ third) := by
  ext1 <;> exact List.append_assoc _ _ _

/-- The entries of reports that are put one behind the other. -/
theorem entries_append (front back : Report) (category : Category) :
    (front ++ back).entries category = front.entries category ++ back.entries category := by
  cases category <;> exact List.map_append

/-! ### Filing -/

/-- Filing one entry puts behind the report what it makes of an empty one. -/
theorem push_fst (report : Report) (category : Category) (entry : Entry) :
    (report.push category entry).1 = report ++ (({} : Report).push category entry).1 := by
  cases category <;> cases entry <;> simp [push, append_def, Report.append]

/-- The report of entries with their categories. -/
def ofEntries (entries : List (Category × Entry)) : Report :=
  (({} : Report).pushAll entries).1

/-- Filing entries puts their own report behind. -/
theorem pushAll_fst (report : Report) (entries : List (Category × Entry)) :
    (report.pushAll entries).1 = report ++ ofEntries entries := by
  induction entries generalizing report with
  | nil => rw [ofEntries, pushAll, pushAll, append_empty]
  | cons hit rest ih =>
    obtain ⟨category, entry⟩ := hit
    calc (report.pushAll ((category, entry) :: rest)).1
        = (report.push category entry).1 ++ ofEntries rest := ih _
      _ = report ++ (({} : Report).push category entry).1 ++ ofEntries rest := by rw [push_fst]
      _ = report ++ ((({} : Report).push category entry).1 ++ ofEntries rest) := append_assoc _ _ _
      _ = report ++ ofEntries ((category, entry) :: rest) := congrArg (report ++ ·) (ih _).symm

/-- The report of nodes: their entries, filed one node after the other. -/
def ofNodes (nodes : List Node) : Report :=
  nodes.foldl (fun report node => (report.pushAll node.classify).1) {}

theorem ofTree_eq_ofNodes (tree : Node) : ofTree tree = ofNodes tree.walk := rfl

private theorem foldl_pushAll (report : Report) (nodes : List Node) :
    nodes.foldl (fun report node => (report.pushAll node.classify).1) report
      = report ++ ofNodes nodes := by
  induction nodes generalizing report with
  | nil => rw [ofNodes, List.foldl_nil, List.foldl_nil, append_empty]
  | cons node rest ih =>
    have hfirst : ofNodes (node :: rest) = ofEntries node.classify ++ ofNodes rest := by
      rw [ofNodes, List.foldl_cons, ih, pushAll_fst, empty_append]
    calc (node :: rest).foldl (fun report node => (report.pushAll node.classify).1) report
        = (report.pushAll node.classify).1 ++ ofNodes rest := ih _
      _ = report ++ ofEntries node.classify ++ ofNodes rest := by rw [pushAll_fst]
      _ = report ++ ofNodes (node :: rest) := by rw [append_assoc, hfirst]

@[simp]
theorem ofNodes_nil : ofNodes [] = {} := rfl

/-- The first node's entries come first. -/
theorem ofNodes_cons (node : Node) (rest : List Node) :
    ofNodes (node :: rest) = ofEntries node.classify ++ ofNodes rest := by
  rw [ofNodes, List.foldl_cons, foldl_pushAll, pushAll_fst, empty_append]

theorem ofNodes_append (s t : List Node) : ofNodes (s ++ t) = ofNodes s ++ ofNodes t := by
  rw [ofNodes, List.foldl_append, foldl_pushAll, ← ofNodes]

/-! ### What one node adds -/

/-- The report of an assignment to names; without a name there is nothing to report. -/
def ofAssignment (names : List String) (line : Nat) : Report :=
  if names = [] then {} else { assignments := [⟨names, line⟩] }

/-- What a construct of a kind adds to a report, if it begins on the given line. -/
def ofKind (line : Nat) : Node.Kind → Report
  | .function name params =>
    { functions := [⟨name, line, params⟩], comments := [⟨name, line, params⟩] }
  | .classDef name => { classes := [⟨name, line⟩] }
  | .forLoop => { loops := [⟨.for_, line⟩] }
  | .whileLoop => { loops := [⟨.while_, line⟩] }
  | .conditional => { conditionals := [⟨line⟩] }
  | .assign targets => ofAssignment (targets.filterMap TargetShape.name?) line
  | .importModules modules => { imports := [⟨modules, .none, line⟩] }
  | .importFrom module names => { imports := [⟨names, Rule.sourceOf module, line⟩] }
  | .module | .other _ => {}

/-- The rules for a node's tag make exactly the entries of its kind. -/
theorem ofEntries_classify (node : Node) :
    ofEntries node.classify = ofKind node.position.line node.kind := by
  obtain ⟨kind, position, children⟩ := node
  cases kind with
  | assign targets =>
    have h : (Node.mk (.assign targets) position children).classify =
        ((Rule.assignmentEntry? (.mk (.assign targets) position children)).map
          (Category.assignments, ·)).toList := by
      simp only [Node.classify, Node.kind, Node.Kind.tag, Rule.all]
      cases hentry : Rule.assignmentEntry? (.mk (.assign targets) position children) <;>
        simp [hentry]
    rw [h]
    simp only [Rule.assignmentEntry?, Node.kind, ofKind, ofAssignment]
    cases targets.filterMap TargetShape.name? <;> rfl
  | _ => rfl

/-- Nodes add the same functions and comments. -/
theorem comments_ofNodes (nodes : List Node) :
    (ofNodes nodes).comments = (ofNodes nodes).functions := by
  induction nodes with
  | nil => rfl
  | cons node rest ih =>
    have hnode : (ofKind node.position.line node.kind).comments
        = (ofKind node.position.line node.kind).functions := by
      cases node.kind with
      | assign targets =>
        rw [ofKind, ofAssignment]
        split <;> rfl
      | _ => rfl
    rw [ofNodes_cons, ofEntries_classify]
    simp only [append_def, Report.append, hnode, ih]

end Report

end SourceOutline
