import SourceOutline.Target
import SourceOutline.Proofs.Outline.Parts

/-!
# Every statement is searched, and has its node

The outline of a program and the search for its invalid targets go through the statements each in a
way of its own: the outline puts nodes for handlers and cases between a statement and those in its
branches, and the search takes the statements from a list of what is pending.

**Main result** (`filter_isOfStmt_walk`): the nodes of statements on the walk through an outline are
those of the statements that are searched, one for each in the same order. What other nodes there
are is the root, one node for each handler and one for each case. So no statement with a node
escapes the search, and none that is searched lacks a node.
-/

namespace SourceOutline

namespace Stmt

/-- The handlers of a statement; only a `try` has any. -/
def handlers : Stmt → List Branch
  | tryBlock _ _ handlers _ _ => handlers
  | _ => []

/-- The cases of a statement; only a `match` has any. -/
def matchCases : Stmt → List Branch
  | matchBlock _ cases => cases
  | _ => []

end Stmt

namespace Part

/-- The handler, where the part is one. -/
def handler? : Part → Option Branch
  | handler branch => some branch
  | _ => none

/-- The case, where the part is one. -/
def matchCase? : Part → Option Branch
  | matchCase branch => some branch
  | _ => none

/-! ### Branches among the parts -/

private theorem filterMap_map_statement {branch? : Part → Option Branch}
    (hstmt : ∀ stmt, branch? (.statement stmt) = none) (body : List Stmt) :
    (body.map statement).filterMap branch? = [] := by
  rw [List.filterMap_map, List.filterMap_eq_nil_iff]
  exact fun stmt _ => hstmt stmt

/-- The branches of one kind among the parts are those of the statements. `branch?` finds the
branches of the kind, and `own` says which ones a statement has. -/
private theorem filterMap_visit_perm {branch? : Part → Option Branch} {own : Stmt → List Branch}
    (hstmt : ∀ stmt, branch? (.statement stmt) = none)
    (hown : ∀ stmt : Stmt, stmt.parts.filterMap branch? = own stmt) (pending : List Part) :
    ((visit pending).filterMap branch?).Perm
      (pending.filterMap branch? ++ (Stmt.visit (pending.flatMap stmts)).flatMap own) := by
  fun_induction visit pending with
  | case1 =>
    rw [List.filterMap_nil, List.flatMap_nil, Stmt.visit_nil, List.flatMap_nil, List.append_nil]
  | case2 part pending ih =>
    rw [List.flatMap_append, List.filterMap_append] at ih
    cases part with
    | statement stmt =>
      -- The branches of the statement come in front of those that are pending.
      rw [parts, flatMap_stmts_parts, hown, List.append_assoc] at ih
      rw [List.filterMap_cons_none (hstmt stmt), List.filterMap_cons_none (hstmt stmt),
        visit_flatMap_stmts_statement, List.flatMap_cons]
      exact ih.trans (List.perm_append_comm_assoc _ _ _)
    | handler branch | matchCase branch =>
      rw [parts, flatMap_stmts_map_statement, filterMap_map_statement hstmt, List.nil_append] at ih
      rw [List.filterMap_cons, List.filterMap_cons, List.flatMap_cons, stmts]
      split
      · exact ih
      · exact ih.cons _

private theorem filterMap_ofProgram_perm {branch? : Part → Option Branch} {own : Stmt → List Branch}
    (hstmt : ∀ stmt, branch? (.statement stmt) = none)
    (hown : ∀ stmt : Stmt, stmt.parts.filterMap branch? = own stmt) (program : List Stmt) :
    ((ofProgram program).filterMap branch?).Perm ((Stmt.visit program).flatMap own) := by
  have hperm := filterMap_visit_perm hstmt hown (program.map statement)
  rwa [filterMap_map_statement hstmt, flatMap_stmts_map_statement, List.nil_append] at hperm

/-- A statement has no branches among its parts other than its own handlers and cases. -/
private theorem filterMap_parts (stmt : Stmt) :
    stmt.parts.filterMap handler? = stmt.handlers ∧
      stmt.parts.filterMap matchCase? = stmt.matchCases := by
  have hnone : ∀ {α : Type} (l : List α), l.filterMap (fun _ => (none : Option Branch)) = [] :=
    fun l => List.filterMap_eq_nil_iff.mpr fun _ _ => rfl
  cases stmt <;>
    simp [Stmt.parts, Stmt.handlers, Stmt.matchCases, Stmt.nested, List.filterMap_map,
      Function.comp_def, handler?, matchCase?, hnone]

/-- The handlers among the parts are those of the statements. -/
theorem filterMap_handler?_perm (program : List Stmt) :
    ((ofProgram program).filterMap handler?).Perm ((Stmt.visit program).flatMap Stmt.handlers) :=
  filterMap_ofProgram_perm (fun _ => rfl) (fun stmt => (filterMap_parts stmt).1) program

/-- The cases among the parts are those of the statements. -/
theorem filterMap_matchCase?_perm (program : List Stmt) :
    ((ofProgram program).filterMap matchCase?).Perm
      ((Stmt.visit program).flatMap Stmt.matchCases) :=
  filterMap_ofProgram_perm (fun _ => rfl) (fun stmt => (filterMap_parts stmt).2) program

/-- A part is a statement, a handler or a case. -/
theorem length_eq (parts : List Part) :
    parts.length = (parts.filterMap stmt?).length + (parts.filterMap handler?).length +
      (parts.filterMap matchCase?).length := by
  induction parts with
  | nil => rfl
  | cons part rest ih =>
    cases part <;>
      simp only [List.filterMap_cons, stmt?, handler?, matchCase?, List.length_cons, ih] <;> omega

end Part

/-! ### Nodes of statements -/

namespace Node

/-- Whether a node stands for a statement: it is neither a root nor the node of a branch. -/
def isOfStmt (node : Node) : Bool :=
  match node.kind with
  | .module | .other .handler | .other .matchCase => false
  | _ => true

theorem isOfStmt_kind_ne {node : Node} (h : node.isOfStmt = true) :
    node.kind ≠ .module ∧ node.kind ≠ .other .handler ∧ node.kind ≠ .other .matchCase := by
  refine ⟨?_, ?_, ?_⟩ <;>
  · intro hkind
    rw [isOfStmt, hkind] at h
    exact Bool.false_ne_true h

end Node

namespace Outline

variable {source : Source}

theorem isOfStmt_ofStmt (stmt : Stmt) : (ofStmt source stmt).isOfStmt = true := by
  cases stmt with
  | function start isAsync decorators name signature body => cases isAsync <;> rfl
  | forLoop start isAsync target body orelse => cases isAsync <;> rfl
  | withBlock start isAsync targets body => cases isAsync <;> rfl
  | conditional start isElif body orelse =>
    rw [ofStmt]
    cases Text.standsAt elifWord start source.text <;> rfl
  | _ => rfl

/-- Nodes are chosen from those of parts as the parts are, where both choose alike. -/
private theorem filter_map_node {α : Type} {isChosen : Node → Bool} {choose? : Part → Option α}
    {make : α → Node} (h : ∀ part : Part, Option.guard isChosen (part.node source) =
      (choose? part).map make) (parts : List Part) :
    (parts.map (Part.node source)).filter isChosen = (parts.filterMap choose?).map make := by
  rw [← List.filterMap_eq_filter, List.filterMap_map, List.map_filterMap]
  congr 1
  funext part
  exact h part

theorem filter_isOfStmt_map_node (parts : List Part) :
    (parts.map (Part.node source)).filter Node.isOfStmt =
      (parts.filterMap Part.stmt?).map (ofStmt source) := by
  refine filter_map_node (fun part => ?_) parts
  cases part with
  | statement stmt => exact if_pos (isOfStmt_ofStmt stmt)
  | handler branch | matchCase branch => rfl

theorem filter_handler_map_node (parts : List Part) :
    (parts.map (Part.node source)).filter (·.kind = .other .handler) =
      (parts.filterMap Part.handler?).map fun branch => (Part.handler branch).node source := by
  refine filter_map_node (fun part => ?_) parts
  cases part with
  | statement stmt =>
    exact if_neg (mt of_decide_eq_true (Node.isOfStmt_kind_ne (isOfStmt_ofStmt stmt)).2.1)
  | handler branch | matchCase branch => rfl

theorem filter_matchCase_map_node (parts : List Part) :
    (parts.map (Part.node source)).filter (·.kind = .other .matchCase) =
      (parts.filterMap Part.matchCase?).map fun branch => (Part.matchCase branch).node source := by
  refine filter_map_node (fun part => ?_) parts
  cases part with
  | statement stmt =>
    exact if_neg (mt of_decide_eq_true (Node.isOfStmt_kind_ne (isOfStmt_ofStmt stmt)).2.2)
  | handler branch | matchCase branch => rfl

theorem filter_module_map_node (parts : List Part) :
    (parts.map (Part.node source)).filter (·.kind = .module) = [] := by
  rw [List.filter_eq_nil_iff, List.forall_mem_map]
  intro part _
  cases part with
  | statement stmt =>
    exact mt of_decide_eq_true (Node.isOfStmt_kind_ne (isOfStmt_ofStmt stmt)).1
  | handler branch | matchCase branch => exact Bool.false_ne_true

/-- **The two ways through a program agree.** The nodes of statements on the walk through an outline
are those of the statements that are searched for invalid targets, one for each in the order of the
search. All other nodes are the root, one node for each handler and one for each case, so the
numbers add up to that of all nodes; and nothing is found exactly if none of these statements is at
fault. -/
theorem filter_isOfStmt_walk (source : Source) (program : List Stmt) :
    let nodes := (ofProgram source program).walk
    let searched := Stmt.visit program
    let handlers := searched.flatMap Stmt.handlers
    let cases := searched.flatMap Stmt.matchCases
    nodes.filter Node.isOfStmt = searched.map (ofStmt source) ∧
      nodes.filter (·.kind = .module) = [ofProgram source program] ∧
      (nodes.filter (·.kind = .other .handler)).Perm
        (handlers.map fun branch => (Part.handler branch).node source) ∧
      (nodes.filter (·.kind = .other .matchCase)).Perm
        (cases.map fun branch => (Part.matchCase branch).node source) ∧
      (ofProgram source program).count =
        1 + searched.length + handlers.length + cases.length ∧
      (firstInvalid? program = none ↔ ∀ stmt ∈ searched, stmt.invalidTarget? = none) := by
  intro nodes searched handlers cases
  have hwalk : nodes =
      ofProgram source program :: (Part.ofProgram program).map (Part.node source) :=
    Part.walk_ofProgram source program
  have hsearched : (Part.ofProgram program).filterMap Part.stmt? = searched :=
    Part.filterMap_stmt?_ofProgram program
  have hhandlers : ((Part.ofProgram program).filterMap Part.handler?).Perm handlers :=
    Part.filterMap_handler?_perm program
  have hcases : ((Part.ofProgram program).filterMap Part.matchCase?).Perm cases :=
    Part.filterMap_matchCase?_perm program
  refine ⟨?_, ?_, ?_, ?_, ?_, ?_⟩
  · rw [hwalk, List.filter_cons_of_neg Bool.false_ne_true, filter_isOfStmt_map_node, hsearched]
  · rw [hwalk, List.filter_cons_of_pos rfl, filter_module_map_node]
  · rw [hwalk, List.filter_cons_of_neg Bool.false_ne_true, filter_handler_map_node]
    exact hhandlers.map _
  · rw [hwalk, List.filter_cons_of_neg Bool.false_ne_true, filter_matchCase_map_node]
    exact hcases.map _
  · calc (ofProgram source program).count
      _ = nodes.length := Node.count_eq_length_walk _
      _ = (Part.ofProgram program).length + 1 := by rw [hwalk, List.length_cons, List.length_map]
      _ = searched.length + handlers.length + cases.length + 1 := by
        rw [Part.length_eq, hsearched, hhandlers.length_eq, hcases.length_eq]
      _ = 1 + searched.length + handlers.length + cases.length := by omega
  · rw [firstInvalid?, List.findSome?_eq_none_iff]

end Outline

end SourceOutline
