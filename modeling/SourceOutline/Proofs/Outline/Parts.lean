import SourceOutline.Outline
import SourceOutline.Proofs.Node.Traversal

/-!
# What the nodes of an outline stand for

Below the root of an outline each node stands for a **part** of the program, a statement or a branch
of one (`Part`). Inside the node of a part are the nodes of what the part is made of
(`children_node`), so the walk through an outline lists the parts of the program node by node, each
part before those that it is made of (`walk_ofProgram`).

Without the branches these parts are **the statements as a visit of the statements alone meets
them** (`filterMap_stmt?_visit`), although that visit knows of no branches and goes through the
blocks of a statement on its own.
-/

namespace SourceOutline

/-- A part of a program that has a node of its own. -/
inductive Part where
  | statement (stmt : Stmt)
  /-- A handler of a `try`. -/
  | handler (branch : Branch)
  /-- A case of a `match`. -/
  | matchCase (branch : Branch)

namespace Stmt

/-- What a statement is made of, in source order: the statements of its blocks, and its branches. -/
def parts : Stmt → List Part
  | tryBlock _ body handlers orelse finalbody =>
    body.map .statement ++ handlers.map .handler ++ orelse.map .statement ++
      finalbody.map .statement
  | matchBlock _ cases => cases.map .matchCase
  | stmt => stmt.nested.map .statement

end Stmt

namespace Part

/-- The node of a part. -/
def node (source : Source) : Part → Node
  | statement stmt => Outline.ofStmt source stmt
  | handler branch =>
    .mk (.other .handler) (source.position branch.start) (Outline.ofStmts source branch.body)
  | matchCase branch =>
    .mk (.other .matchCase) (source.position branch.start) (Outline.ofStmts source branch.body)

/-- What a part is made of, in source order. -/
def parts : Part → List Part
  | statement stmt => stmt.parts
  | handler branch | matchCase branch => branch.body.map statement

/-- The statement, where the part is one. -/
def stmt? : Part → Option Stmt
  | statement stmt => some stmt
  | _ => none

/-- The statements of a part that are not inside other ones of it. -/
def stmts : Part → List Stmt
  | statement stmt => [stmt]
  | handler branch | matchCase branch => branch.body

variable {source : Source}

/-! ### Nodes and parts -/

theorem ofStmts_eq_map (program : List Stmt) :
    Outline.ofStmts source program = (program.map statement).map (node source) := by
  induction program with
  | nil => rw [Outline.ofStmts, List.map_nil, List.map_nil]
  | cons stmt rest ih => rw [Outline.ofStmts, ih, List.map_cons, List.map_cons, node]

private theorem ofBranches_eq_map (label : Node.Label) (branches : List Branch) :
    Outline.ofBranches source label branches = branches.map fun branch =>
      .mk (.other label) (source.position branch.start) (Outline.ofStmts source branch.body) := by
  induction branches with
  | nil => rw [Outline.ofBranches, List.map_nil]
  | cons branch rest ih =>
    obtain ⟨start, body⟩ := branch
    rw [Outline.ofBranches, ih, List.map_cons, Branch.start, Branch.body]

/-- **Inside the node of a part are the nodes of what the part is made of.** -/
theorem children_node (part : Part) :
    (part.node source).children = part.parts.map (node source) := by
  cases part with
  | statement stmt =>
    cases stmt with
    | tryBlock start body handlers orelse finalbody =>
      have hhandlers : Outline.ofBranches source .handler handlers =
          (handlers.map handler).map (node source) := by
        rw [ofBranches_eq_map, List.map_map]
        rfl
      simp only [node, Outline.ofStmt, Node.children, parts, Stmt.parts, List.map_append,
        ofStmts_eq_map, hhandlers]
    | matchBlock start cases =>
      have hcases : Outline.ofBranches source .matchCase cases =
          (cases.map matchCase).map (node source) := by
        rw [ofBranches_eq_map, List.map_map]
        rfl
      exact hcases
    | _ =>
      simp only [node, Outline.ofStmt, Node.children, parts, Stmt.parts, Stmt.nested,
        List.map_append, List.map_nil, ofStmts_eq_map]
  | handler branch | matchCase branch => exact ofStmts_eq_map branch.body

/-- Visits the parts that are pending, in order: a part first, then what it is made of, then the
others. There are as many of them as they have nodes in the outline of any text. -/
def visit : (pending : List Part) → List Part
  | [] => []
  | part :: pending => part :: visit (part.parts ++ pending)
termination_by pending => Node.sizeAll (pending.map (node (.ofText [])))
decreasing_by
  simp only [List.map_append, List.map_cons, Node.sizeAll_append, Node.sizeAll_cons,
    Node.size_eq (node _ part), children_node]
  omega

/-- All parts of a program, in source order. -/
def ofProgram (program : List Stmt) : List Part :=
  visit (program.map statement)

/-- **The nodes come in the order of the parts.** -/
theorem visit_map_node (pending : List Part) :
    Node.visit (pending.map (node source)) = (visit pending).map (node source) := by
  fun_induction visit pending with
  | case1 => rw [List.map_nil, Node.visit_nil]
  | case2 part pending ih =>
    rw [List.map_cons, Node.visit, children_node, ← List.map_append, ih, List.map_cons]

/-- The walk through an outline lists its root and then the nodes of all parts of the program. -/
theorem walk_ofProgram (source : Source) (program : List Stmt) :
    (Outline.ofProgram source program).walk =
      Outline.ofProgram source program :: (ofProgram program).map (node source) := by
  rw [Outline.ofProgram, Node.walk_mk, ofStmts_eq_map, visit_map_node, ofProgram]

/-! ### Parts and statements -/

theorem flatMap_stmts_map_statement (program : List Stmt) :
    (program.map statement).flatMap stmts = program := by
  rw [List.flatMap_map]
  exact List.flatMap_singleton' program

/-- What a statement is made of has all statements of its blocks. -/
theorem flatMap_stmts_parts (stmt : Stmt) : stmt.parts.flatMap stmts = stmt.nested := by
  cases stmt with
  | tryBlock start body handlers orelse finalbody =>
    have hhandlers : (handlers.map handler).flatMap stmts = handlers.flatMap Branch.body :=
      List.flatMap_map _ _ _
    simp only [Stmt.parts, Stmt.nested, List.flatMap_append, flatMap_stmts_map_statement, hhandlers]
  | matchBlock start cases => exact List.flatMap_map _ _ _
  | _ => exact flatMap_stmts_map_statement _

/-- A pending statement is visited first, and then those of its blocks. -/
theorem visit_flatMap_stmts_statement (stmt : Stmt) (pending : List Part) :
    Stmt.visit ((statement stmt :: pending).flatMap stmts) =
      stmt :: Stmt.visit (stmt.nested ++ pending.flatMap stmts) := by
  rw [List.flatMap_cons, stmts, List.singleton_append, Stmt.visit]

/-- **The statements among the parts are those that a visit of the statements alone meets**, in the
same order. -/
theorem filterMap_stmt?_visit (pending : List Part) :
    (visit pending).filterMap stmt? = Stmt.visit (pending.flatMap stmts) := by
  fun_induction visit pending with
  | case1 => rw [List.filterMap_nil, List.flatMap_nil, Stmt.visit_nil]
  | case2 part pending ih =>
    rw [List.flatMap_append] at ih
    cases part with
    | statement stmt =>
      rw [parts, flatMap_stmts_parts] at ih
      have hfound : stmt? (statement stmt) = some stmt := rfl
      rw [List.filterMap_cons_some hfound, visit_flatMap_stmts_statement, parts, ih]
    | handler branch | matchCase branch =>
      rw [parts, flatMap_stmts_map_statement] at ih
      rw [List.filterMap_cons_none rfl, List.flatMap_cons, stmts, parts, ih]

theorem filterMap_stmt?_ofProgram (program : List Stmt) :
    (ofProgram program).filterMap stmt? = Stmt.visit program := by
  rw [ofProgram, filterMap_stmt?_visit, flatMap_stmts_map_statement]

theorem statement_mem_ofProgram {program : List Stmt} {stmt : Stmt} :
    statement stmt ∈ ofProgram program ↔ stmt ∈ Stmt.visit program := by
  rw [← filterMap_stmt?_ofProgram, List.mem_filterMap]
  constructor
  · exact fun h => ⟨_, h, rfl⟩
  · rintro ⟨part, hpart, hstmt⟩
    cases part with
    | statement other => exact Option.some.inj hstmt ▸ hpart
    | handler branch | matchCase branch => cases hstmt

end Part

end SourceOutline
