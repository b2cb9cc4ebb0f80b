import SourceOutline.Outline
import SourceOutline.Proofs.Report.Filing

/-!
# The report of a program, read off its statements

A report is made in three steps: the statements become a tree of nodes, the nodes are visited one by
one, and each is matched with a table of rules. `Report.ofStmts` says in **one recursion** over the
statements what comes of it: a statement first adds what it stands for itself, and then what is in
its blocks, in the order in which the source has them.

**Main result** (`ofTree_ofProgram`): both give the same report. A condition is told from an `elif`
by the text, so it has to begin where its own word stands (`Stmt.beginsWithItsWord`); beyond that
the statements may be any.
-/

namespace SourceOutline

/-- The name, where the expression is one. -/
def Expr.id? : Expr → Option String
  | name _ id => some id
  | _ => none

/-- Whether a condition begins where the text has the word that it was written with. -/
def Stmt.beginsWithItsWord (text : List Char) : Stmt → Bool
  | conditional start isElif _ _ =>
    Text.standsAt (if isElif then Outline.elifWord else "if".toList) start text
  | _ => true

/-- All conditions among the statements and inside them begin with their words. -/
def Stmt.AllBegin (text : List Char) (program : List Stmt) : Prop :=
  ∀ stmt ∈ Stmt.visit program, stmt.beginsWithItsWord text

namespace Report

/-- The line of an offset. -/
def lineAt (source : Source) (offset : Nat) : Nat :=
  (source.position offset).line

/-- The line on which a definition is reported. -/
def definitionLine (source : Source) (start : Nat) (decorators : List Span) : Nat :=
  lineAt source (Outline.keywordOffset source.text start decorators)

mutual

/-- What there is to report about a statement and those inside it. -/
def ofStmt (source : Source) : Stmt → Report
  | .function start isAsync decorators name signature body =>
    let entry : FunctionEntry :=
      ⟨name, definitionLine source start decorators, signature.ordinary⟩
    (if isAsync then {} else { functions := [entry], comments := [entry] }) ++ ofStmts source body
  | .classDef start decorators name body =>
    { classes := [⟨name, definitionLine source start decorators⟩] } ++ ofStmts source body
  | .forLoop start isAsync _ body orelse =>
    (if isAsync then {} else { loops := [⟨.for_, lineAt source start⟩] }) ++
      (ofStmts source body ++ ofStmts source orelse)
  | .whileLoop start body orelse =>
    { loops := [⟨.while_, lineAt source start⟩] } ++
      (ofStmts source body ++ ofStmts source orelse)
  | .conditional start isElif body orelse =>
    (if isElif then {} else { conditionals := [⟨lineAt source start⟩] }) ++
      (ofStmts source body ++ ofStmts source orelse)
  | .withBlock _ _ _ body => ofStmts source body
  | .tryBlock _ body handlers orelse finalbody =>
    ofStmts source body ++ ofBranches source handlers ++ ofStmts source orelse ++
      ofStmts source finalbody
  | .matchBlock _ cases => ofBranches source cases
  | .assign start targets => ofAssignment (targets.filterMap Expr.id?) (lineAt source start)
  | .importModules start modules => { imports := [⟨modules, .none, lineAt source start⟩] }
  | .importFrom start module names =>
    { imports := [⟨names, Rule.sourceOf module, lineAt source start⟩] }
  | .augmentedAssign .. | .annotatedAssign .. | .delete .. | .simple _ => {}

/-- What there is to report about statements, one after the other. -/
def ofStmts (source : Source) : List Stmt → Report
  | [] => {}
  | stmt :: rest => ofStmt source stmt ++ ofStmts source rest

/-- What there is to report about handlers or cases, one after the other. -/
def ofBranches (source : Source) : List Branch → Report
  | [] => {}
  | .mk _ body :: rest => ofStmts source body ++ ofBranches source rest

end

end Report

/-! ### Conditions and their words -/

namespace Stmt

variable {text : List Char}

theorem allBegin_nil : AllBegin text [] := by
  simp only [AllBegin, visit_nil, List.not_mem_nil, false_implies, implies_true]

theorem allBegin_append {s t : List Stmt} :
    AllBegin text (s ++ t) ↔ AllBegin text s ∧ AllBegin text t := by
  simp only [AllBegin, visit_append, List.forall_mem_append]

theorem allBegin_cons {stmt : Stmt} {rest : List Stmt} :
    AllBegin text (stmt :: rest) ↔
      stmt.beginsWithItsWord text ∧ AllBegin text stmt.nested ∧ AllBegin text rest := by
  simp only [AllBegin, visit_cons, List.forall_mem_cons, List.forall_mem_append]

/-- The text tells which of the two words a condition was written with. -/
theorem standsAt_elifWord {start : Nat} {isElif : Bool} {body orelse : List Stmt}
    (h : (conditional start isElif body orelse).beginsWithItsWord text) :
    Text.standsAt Outline.elifWord start text = isElif := by
  cases isElif with
  | true => exact h
  | false =>
    obtain ⟨rest, hrest⟩ := List.isPrefixOf_iff_prefix.mp h
    rw [Text.standsAt, ← hrest]
    rfl

end Stmt

/-! ### Both ways to a report agree -/

namespace Report

variable {source : Source}

/-- A node adds what its kind does, and behind that comes what its children add. -/
private theorem ofNodes_visit_mk (kind : Node.Kind) (position : Position)
    (children : List Node) :
    ofNodes (Node.visit [.mk kind position children])
      = ofKind position.line kind ++ ofNodes (Node.visit children) := by
  rw [Node.visit_cons, Node.visit_nil, List.append_nil, ofNodes_cons, ofEntries_classify]
  rfl

private theorem ofNodes_visit_leaf (kind : Node.Kind) (position : Position) :
    ofNodes (Node.visit [.mk kind position []]) = ofKind position.line kind := by
  rw [ofNodes_visit_mk, Node.visit_nil, ofNodes_nil, append_empty]

/-- Two groups of nodes add what each of them adds. -/
private theorem ofNodes_visit_append {s t : List Node} {front back : Report}
    (hs : ofNodes (Node.visit s) = front) (ht : ofNodes (Node.visit t) = back) :
    ofNodes (Node.visit (s ++ t)) = front ++ back := by
  rw [Node.visit_append, ofNodes_append, hs, ht]

/-- The names among the shapes of targets are those among the targets. -/
private theorem filterMap_shape (targets : List Expr) :
    (targets.map Outline.shape).filterMap TargetShape.name? = targets.filterMap Expr.id? := by
  rw [List.filterMap_map]
  congr 1
  funext target
  cases target <;> rfl

mutual

/-- The nodes of a statement add what the statement does. -/
private theorem ofNodes_ofStmt : ∀ stmt : Stmt, stmt.beginsWithItsWord source.text →
    Stmt.AllBegin source.text stmt.nested →
    ofNodes (Node.visit [Outline.ofStmt source stmt]) = ofStmt source stmt
  | .function start isAsync decorators name signature body, _, h => by
    rw [Outline.ofStmt, ofNodes_visit_mk, ofNodes_ofStmts body h, ofStmt]
    cases isAsync <;> rfl
  | .classDef start decorators name body, _, h => by
    rw [Outline.ofStmt, ofNodes_visit_mk, ofNodes_ofStmts body h, ofStmt]
    rfl
  | .forLoop start isAsync target body orelse, _, h => by
    obtain ⟨hbody, horelse⟩ := Stmt.allBegin_append.mp h
    have hblocks := ofNodes_visit_append (ofNodes_ofStmts body hbody)
      (ofNodes_ofStmts orelse horelse)
    rw [Outline.ofStmt, ofNodes_visit_mk, hblocks, ofStmt]
    cases isAsync <;> rfl
  | .whileLoop start body orelse, _, h => by
    obtain ⟨hbody, horelse⟩ := Stmt.allBegin_append.mp h
    have hblocks := ofNodes_visit_append (ofNodes_ofStmts body hbody)
      (ofNodes_ofStmts orelse horelse)
    rw [Outline.ofStmt, ofNodes_visit_mk, hblocks, ofStmt]
    rfl
  | .conditional start isElif body orelse, hword, h => by
    obtain ⟨hbody, horelse⟩ := Stmt.allBegin_append.mp h
    have hblocks := ofNodes_visit_append (ofNodes_ofStmts body hbody)
      (ofNodes_ofStmts orelse horelse)
    -- The outline learns from the text which word it is, and the statement knows it.
    rw [Outline.ofStmt, ofNodes_visit_mk, hblocks, ofStmt, Stmt.standsAt_elifWord hword]
    cases isElif <;> rfl
  | .withBlock start isAsync targets body, _, h => by
    rw [Outline.ofStmt, ofNodes_visit_mk, ofNodes_ofStmts body h, ofStmt]
    exact empty_append _
  | .tryBlock start body handlers orelse finalbody, _, h => by
    obtain ⟨h, hfinal⟩ := Stmt.allBegin_append.mp h
    obtain ⟨h, horelse⟩ := Stmt.allBegin_append.mp h
    obtain ⟨hbody, hhandlers⟩ := Stmt.allBegin_append.mp h
    have hcaught := ofNodes_ofBranches .handler handlers hhandlers
    have hguarded := ofNodes_visit_append (ofNodes_ofStmts body hbody) hcaught
    have hblocks := ofNodes_visit_append (ofNodes_visit_append hguarded
      (ofNodes_ofStmts orelse horelse)) (ofNodes_ofStmts finalbody hfinal)
    rw [Outline.ofStmt, ofNodes_visit_mk, hblocks, ofStmt]
    exact empty_append _
  | .matchBlock start cases, _, h => by
    rw [Outline.ofStmt, ofNodes_visit_mk, ofNodes_ofBranches .matchCase cases h, ofStmt]
    exact empty_append _
  | .assign start targets, _, _ => by
    -- The rule sees the shapes of the targets only, from which the names can still be told.
    have hnames : ofKind (lineAt source start) (.assign (targets.map Outline.shape)) =
        ofAssignment (targets.filterMap Expr.id?) (lineAt source start) := by
      rw [ofKind, filterMap_shape]
    rw [Outline.ofStmt, ofNodes_visit_leaf, ofStmt, ← hnames, lineAt]
  | .augmentedAssign .., _, _ | .annotatedAssign .., _, _ | .delete .., _, _ | .simple _, _, _
  | .importModules .., _, _ | .importFrom .., _, _ => by
    rw [Outline.ofStmt, ofNodes_visit_leaf, ofStmt]
    rfl

/-- The nodes of statements add what the statements do. -/
private theorem ofNodes_ofStmts : ∀ stmts : List Stmt, Stmt.AllBegin source.text stmts →
    ofNodes (Node.visit (Outline.ofStmts source stmts)) = ofStmts source stmts
  | [], _ => by
    rw [Outline.ofStmts, Node.visit_nil, ofNodes_nil, ofStmts]
  | stmt :: rest, h => by
    obtain ⟨hword, hnested, hrest⟩ := Stmt.allBegin_cons.mp h
    rw [Outline.ofStmts, ofStmts]
    exact ofNodes_visit_append (ofNodes_ofStmt stmt hword hnested) (ofNodes_ofStmts rest hrest)

/-- The node of a branch adds nothing itself, whether it is a handler's or a case's. -/
private theorem ofNodes_ofBranches (label : Node.Label) : ∀ branches : List Branch,
    Stmt.AllBegin source.text (branches.flatMap Branch.body) →
    ofNodes (Node.visit (Outline.ofBranches source label branches)) = ofBranches source branches
  | [], _ => by
    rw [Outline.ofBranches, Node.visit_nil, ofNodes_nil, ofBranches]
  | .mk start body :: rest, h => by
    rw [List.flatMap_cons] at h
    obtain ⟨hbody, hrest⟩ := Stmt.allBegin_append.mp h
    have hbranch : ofNodes (Node.visit [.mk (.other label) (source.position start)
        (Outline.ofStmts source body)]) = ofStmts source body := by
      rw [ofNodes_visit_mk, ofNodes_ofStmts body hbody]
      exact empty_append _
    rw [Outline.ofBranches, ofBranches]
    exact ofNodes_visit_append hbranch (ofNodes_ofBranches label rest hrest)

end

/-- **A report is one recursion.** Visiting the outline of a program node by node and filing what
the rules make of each node gives what the statements themselves have to report, block by block in
source order; and the comments of it are its functions. -/
theorem ofTree_ofProgram (source : Source) (program : List Stmt)
    (h : Stmt.AllBegin source.text program) :
    ofTree (Outline.ofProgram source program) = ofStmts source program ∧
      (ofStmts source program).comments = (ofStmts source program).functions := by
  have heq : ofTree (Outline.ofProgram source program) = ofStmts source program := by
    rw [ofTree_eq_ofNodes, Outline.ofProgram, Node.walk, ofNodes_visit_mk,
      ofNodes_ofStmts program h]
    exact empty_append _
  refine ⟨heq, ?_⟩
  rw [← heq, ofTree_eq_ofNodes]
  exact comments_ofNodes _

/-- The text of a condition with an `elif`, each with a statement in its block. -/
private def clauses : List Char :=
  "if a:\n  x = b.c = 1\nelif d:\n  def f(p, /, q): pass\n".toList

private def clausesProgram : List Stmt :=
  [.conditional 0 false
    [.assign 8 [.name ⟨8, 9⟩ "x", .member ⟨12, 15⟩]]
    [.conditional 20 true
      [.function 30 false [] "f" { positionalOnly := ["p"], ordinary := ["q"] } [.simple 46]] []]]

/-- The `elif` is no condition of its own, and only the parameter behind the slash is reported. -/
theorem ofTree_ofProgram_clauses :
    Stmt.AllBegin clauses clausesProgram ∧
      ofTree (Outline.ofProgram (.ofText clauses) clausesProgram) =
        { functions := [⟨"f", 4, ["q"]⟩], conditionals := [⟨1⟩], assignments := [⟨["x"], 2⟩],
          comments := [⟨"f", 4, ["q"]⟩] } := by
  have h : Stmt.AllBegin clauses clausesProgram := by
    simp only [clausesProgram, Stmt.allBegin_cons, Stmt.allBegin_append, Stmt.allBegin_nil,
      Stmt.nested, and_true]
    decide
  exact ⟨h, (ofTree_ofProgram (.ofText clauses) clausesProgram h).1.trans (by decide)⟩

end Report

end SourceOutline
