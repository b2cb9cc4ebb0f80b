import SourceOutline.Position

/-!
# Outline trees

The outline of a program is a tree of the constructs that it is made of, each with its position.
Constructs that reports ask about are kept apart by `Node.Kind`; all others are one kind with a
label. `Node.visit` lists the nodes of trees in order, each before its children.
-/

namespace SourceOutline

/-- The shape of a target on the left of an assignment. -/
inductive TargetShape where
  | name (id : String)
  | member
  | subscript
  /-- A tuple, a list or a starred target. -/
  | unpacking
  | other
  deriving Repr, DecidableEq

/-- The name, where the target is one. -/
def TargetShape.name? : TargetShape → Option String
  | name id => some id
  | _ => none

namespace Node

/-- The constructs that no report is about, although those inside them may be. -/
inductive Label where
  | asyncFunction | asyncFor | asyncWith | withBlock | elifClause | tryBlock | handler | matchBlock
  | matchCase | augmentedAssign | annotatedAssign | statement
  deriving Repr, DecidableEq

/-- What a node stands for. -/
inductive Kind where
  | module
  | function (name : String) (params : List String)
  | classDef (name : String)
  | forLoop
  | whileLoop
  | conditional
  | assign (targets : List TargetShape)
  | importModules (modules : List String)
  /-- An import from a module, which is not named where the import is purely relative. -/
  | importFrom (module : Option String) (names : List String)
  | other (label : Label)
  deriving Repr, DecidableEq

/-- The kinds of nodes without what belongs to the single node. -/
inductive Tag where
  | module | function | classDef | forLoop | whileLoop | conditional | assign | importModules
  | importFrom | other
  deriving Repr, DecidableEq

/-- The tag of a kind. -/
def Kind.tag : Kind → Tag
  | module => .module
  | function .. => .function
  | classDef _ => .classDef
  | forLoop => .forLoop
  | whileLoop => .whileLoop
  | conditional => .conditional
  | assign _ => .assign
  | importModules _ => .importModules
  | importFrom .. => .importFrom
  | other _ => .other

end Node

/-- A construct of a program, where it begins, and the constructs inside it in source order. -/
inductive Node where
  | mk (kind : Node.Kind) (position : Position) (children : List Node)
  deriving Repr

namespace Node

/-- What the node stands for. -/
def kind : Node → Kind
  | mk kind _ _ => kind

/-- Where the construct begins. -/
def position : Node → Position
  | mk _ position _ => position

/-- The constructs inside. -/
def children : Node → List Node
  | mk _ _ children => children

mutual

/-- The number of nodes in a tree. -/
def size : Node → Nat
  | mk _ _ children => sizeAll children + 1

/-- The number of nodes in trees. -/
def sizeAll : List Node → Nat
  | [] => 0
  | node :: rest => size node + sizeAll rest

end

@[simp]
theorem sizeAll_nil : sizeAll [] = 0 := by
  simp [sizeAll]

@[simp]
theorem sizeAll_cons (node : Node) (rest : List Node) :
    sizeAll (node :: rest) = node.size + sizeAll rest := by
  simp [sizeAll]

/-- A node is one more than what is inside it. -/
theorem size_eq (node : Node) : node.size = sizeAll node.children + 1 := by
  cases node
  simp [size, children]

@[simp]
theorem sizeAll_append (s t : List Node) : sizeAll (s ++ t) = sizeAll s + sizeAll t := by
  induction s with
  | nil => simp
  | cons node s ih => simp [ih, Nat.add_assoc]

@[simp]
theorem sizeAll_reverseAux (s t : List Node) :
    sizeAll (s.reverseAux t) = sizeAll s + sizeAll t := by
  induction s generalizing t with
  | nil => simp [List.reverseAux]
  | cons node s ih =>
    simp only [List.reverseAux, ih, sizeAll_cons]
    omega

/-- Visits the trees that are pending, in order: a node first, then its children, then the other
trees. -/
def visit : (pending : List Node) → List Node
  | [] => []
  | node :: pending => node :: visit (node.children ++ pending)
termination_by pending => sizeAll pending
decreasing_by
  simp only [sizeAll_append, sizeAll_cons, size_eq node]
  omega

/-- All nodes of a tree, in order. -/
def walk (tree : Node) : List Node :=
  visit [tree]

/-- Counts the nodes of the trees that are pending, on top of those counted already. In which order
they are met does not matter, so children are put in front in the cheapest way. -/
def countPending (counted : Nat) : (pending : List Node) → Nat
  | [] => counted
  | node :: pending => countPending (counted + 1) (node.children.reverseAux pending)
termination_by pending => sizeAll pending
decreasing_by
  simp only [sizeAll_reverseAux, sizeAll_cons, size_eq node]
  omega

/-- The number of nodes of a tree. -/
def count (tree : Node) : Nat :=
  countPending 0 [tree]

end Node

end SourceOutline
