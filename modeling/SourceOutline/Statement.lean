import SourceOutline.Expression

/-!
# Statements

The statement tree of a program: each kind of statement that opens blocks, defines something,
assigns or imports, and one kind for all others. Every statement knows the byte offset it starts
at; a definition starts at its own keyword and also knows the decorators in front of it.

A handler of a `try` and a case of a `match` are no statements, but a `Branch` of one.

`Stmt.visit` lists the statements of a program in source order, each before the statements of its
own blocks.
-/

namespace SourceOutline

/-- The names of the parameters of a function, by the ways in which they can be passed. -/
structure Signature where
  /-- Those in front of a slash. -/
  positionalOnly : List String := []
  /-- The ordinary ones, which can be passed by position and by name. -/
  ordinary : List String := []
  /-- The one behind a star, which takes what else is passed by position. -/
  star : Option String := none
  keywordOnly : List String := []
  /-- The one behind two stars, which takes what else is passed by name. -/
  doubleStar : Option String := none
  deriving Repr, DecidableEq

mutual

/-- A statement. -/
inductive Stmt where
  | function (start : Nat) (isAsync : Bool) (decorators : List Span) (name : String)
      (signature : Signature) (body : List Stmt)
  | classDef (start : Nat) (decorators : List Span) (name : String) (body : List Stmt)
  | forLoop (start : Nat) (isAsync : Bool) (target : Expr) (body orelse : List Stmt)
  | whileLoop (start : Nat) (body orelse : List Stmt)
  /-- A condition; one written as `elif` is the only statement of the other's `orelse`. It starts at
  its own `if` or `elif`. -/
  | conditional (start : Nat) (isElif : Bool) (body orelse : List Stmt)
  /-- A `with`, with the targets of those of its items that have one. -/
  | withBlock (start : Nat) (isAsync : Bool) (targets : List Expr) (body : List Stmt)
  | tryBlock (start : Nat) (body : List Stmt) (handlers : List Branch)
      (orelse finalbody : List Stmt)
  | matchBlock (start : Nat) (cases : List Branch)
  /-- One value assigned to each of several targets. -/
  | assign (start : Nat) (targets : List Expr)
  | augmentedAssign (start : Nat) (target : Expr)
  | annotatedAssign (start : Nat) (target : Expr)
  | delete (start : Nat) (targets : List Expr)
  | importModules (start : Nat) (modules : List String)
  /-- Names imported from a module; none is named where the import is purely relative. -/
  | importFrom (start : Nat) (module : Option String) (names : List String)
  /-- Any other statement. -/
  | simple (start : Nat)

/-- A handler, which starts at its `except`, or a case, which starts at its pattern. -/
inductive Branch where
  | mk (start : Nat) (body : List Stmt)

end

deriving instance Repr for Stmt, Branch

namespace Branch

/-- The byte offset where the branch starts. -/
def start : Branch → Nat
  | mk start _ => start

/-- The statements of the branch. -/
def body : Branch → List Stmt
  | mk _ body => body

end Branch

namespace Stmt

/-- The byte offset where the statement starts. -/
def start : Stmt → Nat
  | function start .. | classDef start .. | forLoop start .. | whileLoop start ..
  | conditional start .. | withBlock start .. | tryBlock start .. | matchBlock start _
  | assign start _ | augmentedAssign start _ | annotatedAssign start _ | delete start _
  | importModules start _ | importFrom start _ _ | simple start => start

/-- The statements of the statement's own blocks, in source order. -/
def nested : Stmt → List Stmt
  | function _ _ _ _ _ body => body
  | classDef _ _ _ body => body
  | forLoop _ _ _ body orelse => body ++ orelse
  | whileLoop _ body orelse => body ++ orelse
  | conditional _ _ body orelse => body ++ orelse
  | withBlock _ _ _ body => body
  | tryBlock _ body handlers orelse finalbody =>
    body ++ handlers.flatMap Branch.body ++ orelse ++ finalbody
  | matchBlock _ cases => cases.flatMap Branch.body
  | assign .. | augmentedAssign .. | annotatedAssign .. | delete .. | importModules ..
  | importFrom .. | simple _ => []

/-! ### Walking through a program -/

mutual

/-- The number of statements in a statement, itself included. -/
def count : Stmt → Nat
  | function _ _ _ _ _ body => countAll body + 1
  | classDef _ _ _ body => countAll body + 1
  | forLoop _ _ _ body orelse => countAll body + countAll orelse + 1
  | whileLoop _ body orelse => countAll body + countAll orelse + 1
  | conditional _ _ body orelse => countAll body + countAll orelse + 1
  | withBlock _ _ _ body => countAll body + 1
  | tryBlock _ body handlers orelse finalbody =>
    countAll body + countBranches handlers + countAll orelse + countAll finalbody + 1
  | matchBlock _ cases => countBranches cases + 1
  | assign .. | augmentedAssign .. | annotatedAssign .. | delete .. | importModules ..
  | importFrom .. | simple _ => 1

/-- The number of statements in a list of them. -/
def countAll : List Stmt → Nat
  | [] => 0
  | stmt :: rest => count stmt + countAll rest

/-- The number of statements in branches. -/
def countBranches : List Branch → Nat
  | [] => 0
  | .mk _ body :: rest => countAll body + countBranches rest

end

@[simp]
theorem countAll_nil : countAll [] = 0 := by
  simp [countAll]

@[simp]
theorem countAll_cons (stmt : Stmt) (rest : List Stmt) :
    countAll (stmt :: rest) = stmt.count + countAll rest := by
  simp [countAll]

@[simp]
theorem countAll_append (s t : List Stmt) : countAll (s ++ t) = countAll s + countAll t := by
  induction s with
  | nil => simp
  | cons stmt s ih => simp [ih, Nat.add_assoc]

@[simp]
theorem countAll_flatMap_body (branches : List Branch) :
    countAll (branches.flatMap Branch.body) = countBranches branches := by
  induction branches with
  | nil => simp [countBranches]
  | cons branch rest ih =>
    cases branch
    simp [countBranches, Branch.body, ih]

/-- A statement is one more than what its blocks hold. -/
theorem count_eq (stmt : Stmt) : stmt.count = countAll stmt.nested + 1 := by
  cases stmt <;> simp [count, nested, Nat.add_assoc]

/-- Visits the statements that are pending, in order: a statement first, then those of its own
blocks, then the others. -/
def visit : (pending : List Stmt) → List Stmt
  | [] => []
  | stmt :: pending => stmt :: visit (stmt.nested ++ pending)
termination_by pending => countAll pending
decreasing_by
  simp only [countAll_append, countAll_cons, count_eq stmt]
  omega

end Stmt

end SourceOutline
