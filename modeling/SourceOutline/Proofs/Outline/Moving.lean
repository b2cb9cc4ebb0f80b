import SourceOutline.Analysis
import SourceOutline.Proofs.Outline.Definitions
import SourceOutline.Proofs.Target.FirstInvalid

/-!
# Programs at moved offsets

When something is put into a text, the offsets of its program move (`Stmt.movedAll`). Nothing else
of the program changes: it has the same parts, moved (`Part.parts_moved`), and its first invalid
target is the same one, moved (`firstInvalid?_movedAll`).

The outline asks its text for three things: where an offset is, whether `elif` stands there, and
where the search behind the decorators of a definition arrives. **Main result**
(`Part.node_moved`): if two texts agree on the first two (`Source.Agrees`), and for each part of a
program the search arrives at the same place in both, then the outline of the moved program is the
outline of the program, with each position put in its new place (`Node.mapPosition`).
-/

namespace SourceOutline

/-! ### Moved programs -/

/-- The stretch between the moved offsets. -/
def Span.moved (move : Nat → Nat) (span : Span) : Span :=
  ⟨move span.start, move span.stop⟩

namespace Expr

mutual

/-- The expression at moved offsets. -/
def moved (move : Nat → Nat) : Expr → Expr
  | name span id => name (span.moved move) id
  | member span => member (span.moved move)
  | subscript span => subscript (span.moved move)
  | starred span value => starred (span.moved move) (moved move value)
  | tuple span elements => tuple (span.moved move) (movedAll move elements)
  | list span elements => list (span.moved move) (movedAll move elements)
  | other span form => other (span.moved move) form

/-- The expressions at moved offsets. -/
def movedAll (move : Nat → Nat) : List Expr → List Expr
  | [] => []
  | expr :: rest => moved move expr :: movedAll move rest

end

end Expr

namespace Stmt

mutual

/-- The statement at moved offsets. -/
def moved (move : Nat → Nat) : Stmt → Stmt
  | function start isAsync decorators name signature body =>
    function (move start) isAsync (decorators.map (Span.moved move)) name signature
      (movedAll move body)
  | classDef start decorators name body =>
    classDef (move start) (decorators.map (Span.moved move)) name (movedAll move body)
  | forLoop start isAsync target body orelse =>
    forLoop (move start) isAsync (target.moved move) (movedAll move body) (movedAll move orelse)
  | whileLoop start body orelse =>
    whileLoop (move start) (movedAll move body) (movedAll move orelse)
  | conditional start isElif body orelse =>
    conditional (move start) isElif (movedAll move body) (movedAll move orelse)
  | withBlock start isAsync targets body =>
    withBlock (move start) isAsync (Expr.movedAll move targets) (movedAll move body)
  | tryBlock start body handlers orelse finalbody =>
    tryBlock (move start) (movedAll move body) (movedBranches move handlers)
      (movedAll move orelse) (movedAll move finalbody)
  | matchBlock start cases => matchBlock (move start) (movedBranches move cases)
  | assign start targets => assign (move start) (Expr.movedAll move targets)
  | augmentedAssign start target => augmentedAssign (move start) (target.moved move)
  | annotatedAssign start target => annotatedAssign (move start) (target.moved move)
  | delete start targets => delete (move start) (Expr.movedAll move targets)
  | importModules start modules => importModules (move start) modules
  | importFrom start module names => importFrom (move start) module names
  | simple start => simple (move start)

/-- The statements at moved offsets. -/
def movedAll (move : Nat → Nat) : List Stmt → List Stmt
  | [] => []
  | stmt :: rest => moved move stmt :: movedAll move rest

/-- The handlers or cases at moved offsets. -/
def movedBranches (move : Nat → Nat) : List Branch → List Branch
  | [] => []
  | .mk start body :: rest => .mk (move start) (movedAll move body) :: movedBranches move rest

end

end Stmt

/-- The handler or case at moved offsets. -/
def Branch.moved (move : Nat → Nat) (branch : Branch) : Branch :=
  .mk (move branch.start) (Stmt.movedAll move branch.body)

/-- The part at moved offsets. -/
def Part.moved (move : Nat → Nat) : Part → Part
  | statement stmt => statement (stmt.moved move)
  | handler branch => handler (branch.moved move)
  | matchCase branch => matchCase (branch.moved move)

variable {move : Nat → Nat}

namespace Expr

theorem movedAll_eq_map (exprs : List Expr) : movedAll move exprs = exprs.map (moved move) := by
  induction exprs with
  | nil => rw [movedAll, List.map_nil]
  | cons expr rest ih => rw [movedAll, ih, List.map_cons]

/-- The expression stands between the moved offsets. -/
@[simp]
theorem span_moved (expr : Expr) : (expr.moved move).span = expr.span.moved move := by
  cases expr <;> rw [moved] <;> rfl

@[simp]
theorem isPlace_moved (expr : Expr) : (expr.moved move).isPlace = expr.isPlace := by
  cases expr <;> rw [moved] <;> rfl

@[simp]
theorem text_moved (expr : Expr) : (expr.moved move).text = expr.text := by
  cases expr <;> rw [moved] <;> rfl

@[simp]
theorem shape_moved (expr : Expr) : Outline.shape (expr.moved move) = Outline.shape expr := by
  cases expr <;> rw [moved] <;> rfl

mutual

/-- A moved expression has the same parts, moved. -/
theorem parts_moved : ∀ expr : Expr, (expr.moved move).parts = expr.parts.map (moved move)
  | name _ _ | member _ | subscript _ | other _ _ => by
    simp only [moved, parts, List.map_cons, List.map_nil]
  | starred _ value => by
    simp only [moved, parts, List.map_cons, parts_moved value]
  | tuple _ elements | list _ elements => by
    simp only [moved, parts, List.map_cons, partsOf_movedAll elements]

theorem partsOf_movedAll : ∀ exprs : List Expr,
    partsOf (movedAll move exprs) = (partsOf exprs).map (moved move)
  | [] => rfl
  | expr :: rest => by
    rw [movedAll, partsOf, partsOf, List.map_append, parts_moved expr, partsOf_movedAll rest]

end

end Expr

namespace Stmt

theorem movedAll_eq_map (program : List Stmt) :
    movedAll move program = program.map (moved move) := by
  induction program with
  | nil => rw [movedAll, List.map_nil]
  | cons stmt rest ih => rw [movedAll, ih, List.map_cons]

theorem movedBranches_eq_map (branches : List Branch) :
    movedBranches move branches = branches.map (Branch.moved move) := by
  induction branches with
  | nil => rw [movedBranches, List.map_nil]
  | cons branch rest ih =>
    obtain ⟨start, body⟩ := branch
    rw [movedBranches, ih, List.map_cons, Branch.moved, Branch.start, Branch.body]

@[simp]
theorem start_moved (stmt : Stmt) : (stmt.moved move).start = move stmt.start := by
  cases stmt <;> rw [moved] <;> rfl

@[simp]
theorem decorators_moved (stmt : Stmt) :
    (stmt.moved move).decorators = stmt.decorators.map (Span.moved move) := by
  cases stmt <;> rw [moved] <;> rfl

theorem body_moved (branch : Branch) :
    (branch.moved move).body = branch.body.map (moved move) :=
  movedAll_eq_map branch.body

private theorem flatMap_body_movedBranches (branches : List Branch) :
    (movedBranches move branches).flatMap Branch.body =
      (branches.flatMap Branch.body).map (moved move) := by
  rw [movedBranches_eq_map, List.flatMap_map, List.map_flatMap]
  exact congrArg (branches.flatMap ·) (funext body_moved)

/-- The statements of a block are parts that are moved as they are. -/
theorem map_statement_moved (stmts : List Stmt) :
    (stmts.map (moved move)).map Part.statement =
      (stmts.map Part.statement).map (Part.moved move) := by
  rw [List.map_map, List.map_map]
  rfl

/-- The blocks of a moved statement have its statements, moved. -/
theorem nested_moved (stmt : Stmt) :
    (stmt.moved move).nested = stmt.nested.map (moved move) := by
  cases stmt <;>
    simp only [moved, nested, movedAll_eq_map, flatMap_body_movedBranches, List.map_append,
      List.map_nil]

/-- A moved statement is made of the same parts, moved. -/
theorem parts_moved (stmt : Stmt) : (stmt.moved move).parts = stmt.parts.map (Part.moved move) := by
  cases stmt with
  | tryBlock start body handlers orelse finalbody =>
    have hhandlers : (handlers.map (Branch.moved move)).map Part.handler =
        (handlers.map Part.handler).map (Part.moved move) := by
      rw [List.map_map, List.map_map]
      rfl
    simp only [moved, parts, movedAll_eq_map, movedBranches_eq_map, List.map_append,
      map_statement_moved, hhandlers]
  | matchBlock start cases =>
    rw [moved, parts, parts, movedBranches_eq_map, List.map_map, List.map_map]
    rfl
  | _ =>
    simp only [moved, parts, nested, movedAll_eq_map, List.map_append, map_statement_moved,
      List.map_nil]

/-- The visit of a moved program meets the same statements, moved. -/
theorem visit_map_moved (program : List Stmt) :
    visit (program.map (moved move)) = (visit program).map (moved move) := by
  fun_induction visit program with
  | case1 => rw [List.map_nil, visit_nil]
  | case2 stmt pending ih =>
    rw [List.map_cons, visit, nested_moved, ← List.map_append, ih, List.map_cons]

end Stmt

namespace Part

@[simp]
theorem start_moved (part : Part) : (part.moved move).start = move part.start := by
  cases part with
  | statement stmt => exact stmt.start_moved
  | handler branch | matchCase branch => rfl

@[simp]
theorem decorators_moved (part : Part) :
    (part.moved move).decorators = part.decorators.map (Span.moved move) := by
  cases part with
  | statement stmt => exact stmt.decorators_moved
  | handler branch | matchCase branch => rfl

/-- A moved part is made of the same parts, moved. -/
theorem parts_moved (part : Part) : (part.moved move).parts = part.parts.map (Part.moved move) := by
  cases part with
  | statement stmt => exact stmt.parts_moved
  | handler branch | matchCase branch =>
    calc (branch.moved move).body.map statement
        = (branch.body.map (Stmt.moved move)).map statement := by rw [Stmt.body_moved]
      _ = (branch.body.map statement).map (Part.moved move) := Stmt.map_statement_moved _

/-- The parts that are pending are among those that are visited. -/
theorem subset_visit (pending : List Part) : pending ⊆ visit pending := by
  fun_induction visit pending with
  | case1 => exact List.nil_subset _
  | case2 part pending ih =>
    exact List.cons_subset_cons part fun other hother => ih (List.mem_append_right _ hother)

end Part

/-! ### Moved outlines -/

namespace Node

mutual

/-- The tree with each of its positions put in its new place. -/
def mapPosition (place : Position → Position) : Node → Node
  | mk kind position children => mk kind (place position) (mapPositions place children)

/-- The trees with each of their positions put in its new place. -/
def mapPositions (place : Position → Position) : List Node → List Node
  | [] => []
  | node :: rest => mapPosition place node :: mapPositions place rest

end

theorem mapPositions_eq_map (place : Position → Position) (nodes : List Node) :
    mapPositions place nodes = nodes.map (mapPosition place) := by
  induction nodes with
  | nil => rw [mapPositions, List.map_nil]
  | cons node rest ih => rw [mapPositions, ih, List.map_cons]

/-- The tree of a node is told from its kind, its position and its children. -/
theorem eq_mapPosition {place : Position → Position} {node node' : Node}
    (hkind : node'.kind = node.kind) (hposition : node'.position = place node.position)
    (hchildren : node'.children = node.children.map (mapPosition place)) :
    node' = node.mapPosition place := by
  obtain ⟨kind, position, children⟩ := node
  obtain ⟨kind', position', children'⟩ := node'
  rw [mapPosition, mapPositions_eq_map]
  exact congr (congr (congrArg mk hkind) hposition) hchildren

mutual

/-- Positions that stay in their places leave a tree as it is. -/
theorem mapPosition_id : ∀ node : Node, node.mapPosition id = node
  | mk kind position children => by rw [mapPosition, mapPositions_id children, id]

theorem mapPositions_id : ∀ nodes : List Node, mapPositions id nodes = nodes
  | [] => rfl
  | node :: rest => by rw [mapPositions, mapPosition_id node, mapPositions_id rest]

end

end Node

/-- Whether an outline finds the same in two texts: the offsets of the one are moved in the other,
and their positions are put in new places. -/
structure Source.Agrees (move : Nat → Nat) (place : Position → Position)
    (source source' : Source) : Prop where
  /-- A moved offset is at the new place of its position. -/
  position (offset : Nat) : source'.position (move offset) = place (source.position offset)
  /-- Conditions are written as `elif` in both texts or in none. -/
  elif (offset : Nat) : Text.standsAt Outline.elifWord (move offset) source'.text =
    Text.standsAt Outline.elifWord offset source.text

namespace Part

variable {place : Position → Position} {source source' : Source}

/-- The node of a moved part is of the same kind. -/
theorem kind_node_moved (h : source.Agrees move place source') (part : Part) :
    ((part.moved move).node source').kind = (part.node source).kind := by
  cases part with
  | statement stmt =>
    cases stmt with
    | conditional start isElif body orelse =>
      rw [moved, Stmt.moved, node, Outline.ofStmt, h.elif]
      rfl
    | assign start targets =>
      have hshapes : (Expr.movedAll move targets).map Outline.shape =
          targets.map Outline.shape := by
        rw [Expr.movedAll_eq_map, List.map_map]
        exact List.map_congr_left fun target _ => target.shape_moved
      rw [moved, Stmt.moved, node, Outline.ofStmt]
      exact congrArg Node.Kind.assign hshapes
    | _ => rw [moved, Stmt.moved, node, Outline.ofStmt, node, Outline.ofStmt]; rfl
  | handler branch | matchCase branch => rfl

/-- **The nodes of moved parts are those of the parts, at their new places**, if the search behind
the decorators arrives at the same places. -/
theorem node_moved (h : source.Agrees move place source') (pending : List Part)
    (hoffset : ∀ part ∈ visit pending,
      (part.moved move).offset source'.text = move (part.offset source.text)) :
    ∀ part ∈ visit pending,
      (part.moved move).node source' = (part.node source).mapPosition place := by
  fun_induction visit pending with
  | case1 => exact fun part hpart => absurd hpart List.not_mem_nil
  | case2 part pending ih =>
    rw [List.forall_mem_cons] at hoffset ⊢
    have hrest := ih hoffset.2
    refine ⟨Node.eq_mapPosition (kind_node_moved h part) ?_ ?_, hrest⟩
    · rw [position_node, position_node, hoffset.1, h.position]
    · -- What the part is made of is visited behind it.
      rw [children_node, children_node, parts_moved, List.map_map, List.map_map]
      exact List.map_congr_left fun inner hinner =>
        hrest inner (subset_visit _ (List.mem_append_left _ hinner))

/-- The outline of a moved program, below its root. -/
theorem ofStmts_movedAll (h : source.Agrees move place source') {program : List Stmt}
    (hoffset : ∀ part ∈ ofProgram program,
      (part.moved move).offset source'.text = move (part.offset source.text)) :
    Outline.ofStmts source' (Stmt.movedAll move program) =
      (Outline.ofStmts source program).map (Node.mapPosition place) := by
  have hnode : ∀ stmt ∈ program, (statement (stmt.moved move)).node source' =
      ((statement stmt).node source).mapPosition place := fun stmt hstmt =>
    node_moved h _ hoffset (statement stmt) (subset_visit _ (List.mem_map_of_mem hstmt))
  calc Outline.ofStmts source' (Stmt.movedAll move program)
    _ = program.map fun stmt => (statement (stmt.moved move)).node source' := by
      rw [ofStmts_eq_map, Stmt.movedAll_eq_map, List.map_map, List.map_map]
      rfl
    _ = program.map fun stmt => ((statement stmt).node source).mapPosition place :=
      List.map_congr_left hnode
    _ = (Outline.ofStmts source program).map (Node.mapPosition place) := by
      rw [ofStmts_eq_map, List.map_map, List.map_map]
      rfl

end Part

/-! ### Moved targets -/

/-- The invalid target at moved offsets. -/
def InvalidTarget.moved (move : Nat → Nat) (invalid : InvalidTarget) : InvalidTarget :=
  ⟨invalid.target.moved move, invalid.use⟩

/-- The same is said about a moved target. -/
@[simp]
theorem InvalidTarget.message_moved (invalid : InvalidTarget) :
    (invalid.moved move).message = invalid.message := by
  obtain ⟨target, use⟩ := invalid
  cases use with
  | annotate => cases target <;> rw [moved, Expr.moved] <;> rfl
  | _ => simp only [moved, message, Expr.text_moved]

theorem TargetUse.refuses_moved (use : TargetUse) (expr : Expr) :
    use.refuses (expr.moved move) = use.refuses expr := by
  cases use with
  | update | annotate => exact congrArg not expr.isPlace_moved
  | _ => cases expr <;> rw [Expr.moved] <;> rfl

namespace Stmt

/-- A moved statement has the same targets, moved. -/
theorem ownTargets_moved (stmt : Stmt) :
    (stmt.moved move).ownTargets =
      stmt.ownTargets.map fun target => (target.1, target.2.moved move) := by
  cases stmt <;>
    simp only [moved, ownTargets, Expr.movedAll_eq_map, List.map_map, List.map_cons, List.map_nil,
      Function.comp_def]

/-- A moved statement is at fault for the same part of its targets, moved. -/
theorem invalidTarget?_moved (stmt : Stmt) :
    (stmt.moved move).invalidTarget? = stmt.invalidTarget?.map (InvalidTarget.moved move) := by
  have hparts : ((stmt.moved move).ownTargets.flatMap usedParts) =
      (stmt.ownTargets.flatMap usedParts).map fun part => (part.1, part.2.moved move) := by
    rw [ownTargets_moved, List.flatMap_map, List.map_flatMap]
    refine congrArg (stmt.ownTargets.flatMap ·) (funext fun target => ?_)
    rw [usedParts, usedParts, Expr.parts_moved, List.map_map, List.map_map]
    rfl
  have hrefused : (isRefused ∘ fun part : TargetUse × Expr => (part.1, part.2.moved move)) =
      isRefused := funext fun part => part.1.refuses_moved part.2
  have hfound : ((stmt.moved move).ownTargets.flatMap usedParts).find? isRefused =
      ((stmt.ownTargets.flatMap usedParts).find? isRefused).map
        fun part => (part.1, part.2.moved move) := by
    rw [hparts, List.find?_map, hrefused]
  rw [invalidTarget?_eq, invalidTarget?_eq, hfound, Option.map_map, Option.map_map]
  rfl

end Stmt

/-- **The first invalid target of a moved program is that of the program, moved.** -/
theorem firstInvalid?_movedAll (program : List Stmt) :
    firstInvalid? (Stmt.movedAll move program) =
      (firstInvalid? program).map (InvalidTarget.moved move) := by
  have hmoved : Stmt.invalidTarget? ∘ Stmt.moved move =
      Option.map (InvalidTarget.moved move) ∘ Stmt.invalidTarget? :=
    funext Stmt.invalidTarget?_moved
  calc firstInvalid? (Stmt.movedAll move program)
    _ = ((Stmt.visit program).map (Stmt.moved move)).findSome? Stmt.invalidTarget? := by
      rw [firstInvalid?, Stmt.movedAll_eq_map, Stmt.visit_map_moved]
    _ = (Stmt.visit program).findSome? (Option.map (InvalidTarget.moved move) ∘
        Stmt.invalidTarget?) := by
      rw [List.findSome?_map, hmoved]
    _ = (firstInvalid? program).map (InvalidTarget.moved move) := by
      rw [firstInvalid?, List.map_findSome?]

/-- If two texts agree, then what is wrong with the targets of a program is said of the moved
program, at the new place. -/
theorem SyntaxError.ofTarget_moved {place : Position → Position} {source source' : Source}
    (h : source.Agrees move place source') (invalid : InvalidTarget) :
    ofTarget source' (invalid.moved move) =
      ⟨invalid.message, some (place (source.position invalid.offset))⟩ := by
  rw [ofTarget, InvalidTarget.message_moved, ← h.position, InvalidTarget.offset,
    InvalidTarget.moved, Expr.span_moved]
  rfl

end SourceOutline
