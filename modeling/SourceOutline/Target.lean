import SourceOutline.Statement

/-!
# Targets

The grammar reads any expression where a value is assigned, deleted or updated. Here is what may
stand there: names, members and subscripts anywhere; where a value is unpacked, also starred
targets, tuples and lists of targets; and where names are deleted, tuples and lists.

`firstInvalid?` walks the statements of a program in source order, each before the statements of its
own blocks, and finds the first expression that may not stand where it does.
-/

namespace SourceOutline

/-- In what way an expression is used as a target. -/
inductive TargetUse where
  /-- By `=`, `for` or `with`. -/
  | store
  /-- By `del`. -/
  | delete
  /-- By an operator with `=`. -/
  | update
  /-- With an annotation. -/
  | annotate
  deriving Repr, DecidableEq

/-- An expression that may not be used as it is. -/
structure InvalidTarget where
  target : Expr
  use : TargetUse
  deriving Repr

namespace InvalidTarget

/-- The wording for each use. -/
def message (invalid : InvalidTarget) : String :=
  match invalid.use with
  | .store => "cannot assign to " ++ invalid.target.text
  | .delete => "cannot delete " ++ invalid.target.text
  | .update => "'" ++ invalid.target.text ++ "' is an illegal expression for augmented assignment"
  | .annotate =>
    match invalid.target with
    | .tuple .. => "only single target (not tuple) can be annotated"
    | .list .. => "only single target (not list) can be annotated"
    | _ => "illegal target for annotation"

/-- The byte offset that the fault is reported at: where the expression starts. -/
def offset (invalid : InvalidTarget) : Nat :=
  invalid.target.span.start

end InvalidTarget

namespace Expr

/-- Whether the expression is a name, a member or a subscript. -/
def isPlace : Expr → Bool
  | name .. | member _ | subscript _ => true
  | _ => false

mutual

/-- The first part of the expression that cannot be assigned to. -/
def unassignable? : Expr → Option Expr
  | name .. | member _ | subscript _ => none
  | starred _ value => unassignable? value
  | tuple _ elements => firstUnassignable? elements
  | list _ elements => firstUnassignable? elements
  | other span form => some (other span form)

/-- The first part of the expressions that cannot be assigned to. -/
def firstUnassignable? : List Expr → Option Expr
  | [] => none
  | expr :: rest => (unassignable? expr).or (firstUnassignable? rest)

end

mutual

/-- The first part of the expression that cannot be deleted. -/
def undeletable? : Expr → Option Expr
  | name .. | member _ | subscript _ => none
  | tuple _ elements => firstUndeletable? elements
  | list _ elements => firstUndeletable? elements
  | starred span value => some (starred span value)
  | other span form => some (other span form)

/-- The first part of the expressions that cannot be deleted. -/
def firstUndeletable? : List Expr → Option Expr
  | [] => none
  | expr :: rest => (undeletable? expr).or (firstUndeletable? rest)

end

/-- The expression itself, if it is no name, member or subscript. -/
def notPlace? (expr : Expr) : Option Expr :=
  if expr.isPlace then none else some expr

end Expr

namespace Stmt

/-- The first expression among the statement's own targets that may not stand there. -/
def invalidTarget? : Stmt → Option InvalidTarget
  | assign _ targets => (Expr.firstUnassignable? targets).map (⟨·, .store⟩)
  | forLoop _ _ target _ _ => target.unassignable?.map (⟨·, .store⟩)
  | withBlock _ _ targets _ => (Expr.firstUnassignable? targets).map (⟨·, .store⟩)
  | delete _ targets => (Expr.firstUndeletable? targets).map (⟨·, .delete⟩)
  | augmentedAssign _ target => target.notPlace?.map (⟨·, .update⟩)
  | annotatedAssign _ target => target.notPlace?.map (⟨·, .annotate⟩)
  | function .. | classDef .. | whileLoop .. | conditional .. | tryBlock .. | matchBlock ..
  | importModules .. | importFrom .. | simple _ => none

end Stmt

/-- The first expression of a program that may not be used as a target as it is. -/
def firstInvalid? (program : List Stmt) : Option InvalidTarget :=
  (Stmt.visit program).findSome? Stmt.invalidTarget?

end SourceOutline
