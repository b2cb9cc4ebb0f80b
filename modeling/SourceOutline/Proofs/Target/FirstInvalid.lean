import SourceOutline.Proofs.Node.Traversal
import SourceOutline.Proofs.Target.Language

/-!
# The first invalid target of a program

The targets of a program are found by **one recursion** over its statements: a statement's own
targets come first, from left to right, and then those in its blocks, in the order in which the
source has them (`Stmt.targetsIn`). With the parts of each this is everything that is looked at, in
the order in which a reader meets it (`usedParts`).

**Main result** (`firstInvalid?_eq_iff`): a program passes exactly if all of its targets are in the
language of their use. Otherwise what is found is the first part that is refused, with what is said
about it. The visit of the statements that are pending takes no other way through the program than
the recursion (`targetsInAll_eq_flatMap`).
-/

namespace SourceOutline

namespace Stmt

mutual

/-- The targets in a statement and in its blocks, with how each is used. -/
def targetsIn : Stmt → List (TargetUse × Expr)
  | function _ _ _ _ _ body => targetsInAll body
  | classDef _ _ _ body => targetsInAll body
  | forLoop _ _ target body orelse => (.store, target) :: (targetsInAll body ++ targetsInAll orelse)
  | whileLoop _ body orelse => targetsInAll body ++ targetsInAll orelse
  | conditional _ _ body orelse => targetsInAll body ++ targetsInAll orelse
  | withBlock _ _ targets body => targets.map (.store, ·) ++ targetsInAll body
  | tryBlock _ body handlers orelse finalbody =>
    targetsInAll body ++ targetsInBranches handlers ++ targetsInAll orelse ++ targetsInAll finalbody
  | matchBlock _ cases => targetsInBranches cases
  | assign _ targets => targets.map (.store, ·)
  | augmentedAssign _ target => [(.update, target)]
  | annotatedAssign _ target => [(.annotate, target)]
  | delete _ targets => targets.map (.delete, ·)
  | importModules .. | importFrom .. | simple _ => []

/-- The targets in statements, one after the other. -/
def targetsInAll : List Stmt → List (TargetUse × Expr)
  | [] => []
  | stmt :: rest => targetsIn stmt ++ targetsInAll rest

/-- The targets in handlers or cases, one after the other. -/
def targetsInBranches : List Branch → List (TargetUse × Expr)
  | [] => []
  | .mk _ body :: rest => targetsInAll body ++ targetsInBranches rest

end

/-- The targets of the statement itself. -/
def ownTargets : Stmt → List (TargetUse × Expr)
  | forLoop _ _ target _ _ => [(.store, target)]
  | withBlock _ _ targets _ | assign _ targets => targets.map (.store, ·)
  | augmentedAssign _ target => [(.update, target)]
  | annotatedAssign _ target => [(.annotate, target)]
  | delete _ targets => targets.map (.delete, ·)
  | _ => []

/-! ### The way through a program -/

theorem targetsInAll_append (s t : List Stmt) :
    targetsInAll (s ++ t) = targetsInAll s ++ targetsInAll t := by
  induction s with
  | nil => rw [List.nil_append, targetsInAll, List.nil_append]
  | cons stmt s ih => rw [List.cons_append, targetsInAll, targetsInAll, ih, List.append_assoc]

private theorem targetsInAll_flatMap_body (branches : List Branch) :
    targetsInAll (branches.flatMap Branch.body) = targetsInBranches branches := by
  induction branches with
  | nil => rw [List.flatMap_nil, targetsInAll, targetsInBranches]
  | cons branch rest ih =>
    obtain ⟨start, body⟩ := branch
    rw [List.flatMap_cons, targetsInAll_append, ih, targetsInBranches, Branch.body]

/-- A statement's own targets come before those in its blocks. -/
theorem targetsIn_eq (stmt : Stmt) :
    stmt.targetsIn = stmt.ownTargets ++ targetsInAll stmt.nested := by
  cases stmt with
  | tryBlock start body handlers orelse finalbody =>
    simp only [targetsIn, ownTargets, nested, targetsInAll_append, targetsInAll_flatMap_body,
      List.nil_append]
  | matchBlock start cases =>
    simp only [targetsIn, ownTargets, nested, targetsInAll_flatMap_body, List.nil_append]
  | _ => simp [targetsIn, ownTargets, nested, targetsInAll_append, targetsInAll]

/-- **The visit takes the way of the recursion.** -/
theorem targetsInAll_eq_flatMap (program : List Stmt) :
    targetsInAll program = (visit program).flatMap ownTargets := by
  fun_induction visit program with
  | case1 => rw [targetsInAll, List.flatMap_nil]
  | case2 stmt pending ih =>
    calc targetsInAll (stmt :: pending)
      _ = stmt.ownTargets ++ targetsInAll stmt.nested ++ targetsInAll pending := by
        rw [targetsInAll, targetsIn_eq]
      _ = stmt.ownTargets ++ targetsInAll (stmt.nested ++ pending) := by
        rw [targetsInAll_append, List.append_assoc]
      _ = (stmt :: visit (stmt.nested ++ pending)).flatMap ownTargets := by
        rw [ih, List.flatMap_cons]

end Stmt

/-! ### What is looked at -/

/-- The parts of a target, used as it is. -/
def usedParts (target : TargetUse × Expr) : List (TargetUse × Expr) :=
  target.2.parts.map (target.1, ·)

/-- Whether a part is refused in its use. -/
def isRefused (part : TargetUse × Expr) : Bool :=
  part.1.refuses part.2

/-- The parts of targets with one use are looked through like those of the expressions. -/
private theorem find?_usedParts (use : TargetUse) (exprs : List Expr) :
    ((exprs.map (use, ·)).flatMap usedParts).find? isRefused =
      ((Expr.partsOf exprs).find? use.refuses).map (use, ·) := by
  have hparts : (exprs.map (use, ·)).flatMap usedParts = (Expr.partsOf exprs).map (use, ·) := by
    rw [Expr.partsOf_eq_flatMap, List.flatMap_map, List.map_flatMap]
    rfl
  rw [hparts, List.find?_map]
  rfl

private theorem find?_usedParts_singleton (use : TargetUse) (expr : Expr) :
    ([(use, expr)].flatMap usedParts).find? isRefused =
      (expr.parts.find? use.refuses).map (use, ·) := by
  have h := find?_usedParts use [expr]
  rwa [Expr.partsOf, Expr.partsOf, List.append_nil] at h

/-- **The step.** A statement is at fault for the first part of its own targets that is refused. -/
theorem Stmt.invalidTarget?_eq (stmt : Stmt) :
    stmt.invalidTarget? =
      ((stmt.ownTargets.flatMap usedParts).find? isRefused).map fun part => ⟨part.2, part.1⟩ := by
  cases stmt with
  | forLoop start isAsync target body orelse =>
    rw [invalidTarget?, ownTargets, find?_usedParts_singleton, Expr.unassignable?_eq_find?,
      Option.map_map]
    rfl
  | withBlock start isAsync targets body =>
    rw [invalidTarget?, ownTargets, find?_usedParts, Expr.firstUnassignable?_eq_find?,
      Option.map_map]
    rfl
  | assign start targets =>
    rw [invalidTarget?, ownTargets, find?_usedParts, Expr.firstUnassignable?_eq_find?,
      Option.map_map]
    rfl
  | delete start targets =>
    rw [invalidTarget?, ownTargets, find?_usedParts, Expr.firstUndeletable?_eq_find?,
      Option.map_map]
    rfl
  | augmentedAssign start target =>
    rw [invalidTarget?, ownTargets, find?_usedParts_singleton, Expr.notPlace?_eq_find? (.inl rfl),
      Option.map_map]
    rfl
  | annotatedAssign start target =>
    rw [invalidTarget?, ownTargets, find?_usedParts_singleton, Expr.notPlace?_eq_find? (.inr rfl),
      Option.map_map]
    rfl
  | _ => rfl

/-- **The run.** What is found in a program is the first part of all its targets that is refused. -/
theorem firstInvalid?_eq_find? (program : List Stmt) :
    firstInvalid? program =
      (((Stmt.targetsInAll program).flatMap usedParts).find? isRefused).map
        fun part => ⟨part.2, part.1⟩ := by
  rw [firstInvalid?, Stmt.targetsInAll_eq_flatMap, List.flatMap_assoc, List.find?_flatMap,
    List.map_findSome?]
  congr 1
  funext stmt
  exact stmt.invalidTarget?_eq

/-- **What is wrong with the targets of a program.** Nothing is found exactly if each target, at any
depth, is in the language of its use. Something is found, and something is said about it, exactly if
it is the first refused part of the targets in source order and this is what is to be said. -/
theorem firstInvalid?_eq_iff (program : List Stmt) :
    (firstInvalid? program = none ↔
      ∀ target ∈ Stmt.targetsInAll program, IsTarget target.1 target.2) ∧
    ∀ invalid message, (firstInvalid? program = some invalid ∧ invalid.message = message) ↔
      ∃ before after, (Stmt.targetsInAll program).flatMap usedParts =
          before ++ (invalid.use, invalid.target) :: after ∧
        (∀ part ∈ before, ∀ message, ¬ Refused part.1 part.2 message) ∧
        Refused invalid.use invalid.target message := by
  rw [firstInvalid?_eq_find?]
  constructor
  · rw [Option.map_eq_none_iff, List.find?_eq_none, List.forall_mem_flatMap]
    refine forall₂_congr fun target _ => ?_
    rw [isTarget_iff, usedParts, List.forall_mem_map]
    simp only [isRefused, Bool.not_eq_true]
  · intro invalid message
    obtain ⟨expr, use⟩ := invalid
    have hsome : Option.map (fun part => InvalidTarget.mk part.2 part.1)
          (((Stmt.targetsInAll program).flatMap usedParts).find? isRefused) = some ⟨expr, use⟩ ↔
        ((Stmt.targetsInAll program).flatMap usedParts).find? isRefused = some (use, expr) := by
      rw [Option.map_eq_some_iff]
      constructor
      · rintro ⟨part, hpart, heq⟩
        cases heq
        exact hpart
      · exact fun h => ⟨_, h, rfl⟩
    rw [hsome, List.find?_eq_some_iff_append, refused_iff]
    simp only [isRefused, forall_not_refused_iff, Bool.not_eq_true']
    constructor
    · rintro ⟨⟨hrefuses, before, after, hparts, hbefore⟩, hmessage⟩
      exact ⟨before, after, hparts, fun part hpart => hbefore part hpart, hrefuses, hmessage⟩
    · rintro ⟨before, after, hparts, hbefore, hrefuses, hmessage⟩
      exact ⟨⟨hrefuses, before, after, hparts, fun part hpart => hbefore part hpart⟩, hmessage⟩

end SourceOutline
