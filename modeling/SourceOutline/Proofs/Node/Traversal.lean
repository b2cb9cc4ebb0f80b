import SourceOutline.Node
import SourceOutline.Statement

/-!
# Visiting trees part by part

`Node.visit` and `Stmt.visit` work on one list of what is pending: they take the first of it and put
its parts in front of the others. What they visit can nevertheless be said of each pending tree on
its own, and of the parts of a tree on their own: visiting **distributes over lists**
(`Node.visit_append`, `Stmt.visit_append`), so it is the list of a tree, then all of its first part,
then all of its second (`Node.visit_cons`, `Stmt.visit_cons`). A count of the nodes, which takes
them in another order, comes to as many as are visited (`Node.count_eq_length_walk`). The nodes on
the walk through a tree are those that stand somewhere in it (`Node.mem_walk_iff`).

These laws are all that later modules use of the loops.
-/

namespace SourceOutline

namespace Node

/-- Trees that are pending in front are visited first, all of them. -/
theorem visit_append (s t : List Node) : visit (s ++ t) = visit s ++ visit t := by
  fun_induction visit s with
  | case1 => rw [List.nil_append, List.nil_append]
  | case2 node pending ih => rw [List.cons_append, visit, ← List.append_assoc, ih, List.cons_append]

/-- A tree is visited before what is inside it, and that before the other trees. -/
theorem visit_cons (node : Node) (pending : List Node) :
    visit (node :: pending) = node :: (visit node.children ++ visit pending) := by
  rw [visit, visit_append]

@[simp]
theorem visit_nil : visit [] = [] := by
  rw [visit]

/-- As many nodes are visited as the trees have. -/
theorem length_visit (pending : List Node) : (visit pending).length = sizeAll pending := by
  fun_induction visit pending with
  | case1 => rfl
  | case2 node pending ih =>
    rw [List.length_cons, ih, sizeAll_append, sizeAll_cons, size_eq node]
    omega

/-- In whatever order the pending nodes are met, as many are counted as the trees have. -/
theorem countPending_eq (counted : Nat) (pending : List Node) :
    countPending counted pending = counted + sizeAll pending := by
  fun_induction countPending counted pending with
  | case1 => rfl
  | case2 counted node pending ih =>
    rw [ih, sizeAll_reverseAux, sizeAll_cons, size_eq node]
    omega

/-- The number of nodes of a tree is that of the nodes on the walk through it. -/
theorem count_eq_length_walk (tree : Node) : tree.count = tree.walk.length := by
  rw [count, countPending_eq, Nat.zero_add, walk, length_visit]

/-- The nodes of a tree are its root and those of its children. -/
theorem walk_mk (kind : Kind) (position : Position) (children : List Node) :
    walk (mk kind position children) = mk kind position children :: visit children := by
  rw [walk, visit_cons, visit_nil, List.append_nil, Node.children]

/-- The walk through a tree goes from its root through one child after the other. -/
theorem walk_eq (tree : Node) : tree.walk = tree :: tree.children.flatMap walk := by
  have hvisit : ∀ pending : List Node, visit pending = pending.flatMap walk := by
    intro pending
    induction pending with
    | nil => exact visit_nil
    | cons node pending ih =>
      rw [← List.singleton_append, visit_append, ih, List.singleton_append, List.flatMap_cons, walk]
  rw [walk, visit_cons, visit_nil, List.append_nil, hvisit]

/-- A node stands in a tree if it is the root or stands in one of the children. -/
inductive Occurs (node : Node) : Node → Prop
  | root : Occurs node node
  | inside {tree child : Node} (hchild : child ∈ tree.children) (h : Occurs node child) :
    Occurs node tree

theorem occurs_iff {node tree : Node} :
    node.Occurs tree ↔ node = tree ∨ ∃ child ∈ tree.children, node.Occurs child := by
  constructor
  · rintro (_ | ⟨hchild, h⟩)
    · exact .inl rfl
    · exact .inr ⟨_, hchild, h⟩
  · rintro (rfl | ⟨child, hchild, h⟩)
    · exact .root
    · exact .inside hchild h

/-- Of the trees that are pending all nodes are visited, and no others. -/
theorem mem_visit_iff {node : Node} {pending : List Node} :
    node ∈ visit pending ↔ ∃ tree ∈ pending, node.Occurs tree := by
  fun_induction visit pending with
  | case1 => simp
  | case2 tree pending ih =>
    have hoccurs : node.Occurs tree ↔ node = tree ∨ ∃ child ∈ tree.children, node.Occurs child :=
      occurs_iff
    simp only [List.mem_cons, ih, List.mem_append, or_and_right, exists_or, exists_eq_left, hoccurs,
      or_assoc]

/-- **The nodes on the walk through a tree** are those that stand in it. -/
theorem mem_walk_iff {node tree : Node} : node ∈ tree.walk ↔ node.Occurs tree := by
  rw [walk, mem_visit_iff]
  simp only [List.mem_singleton, exists_eq_left]

end Node

namespace Stmt

/-- Statements that are pending in front are visited first, all of them. -/
theorem visit_append (s t : List Stmt) : visit (s ++ t) = visit s ++ visit t := by
  fun_induction visit s with
  | case1 => rw [List.nil_append, List.nil_append]
  | case2 stmt pending ih => rw [List.cons_append, visit, ← List.append_assoc, ih, List.cons_append]

/-- A statement is visited before those of its own blocks, and they before the other statements. -/
theorem visit_cons (stmt : Stmt) (pending : List Stmt) :
    visit (stmt :: pending) = stmt :: (visit stmt.nested ++ visit pending) := by
  rw [visit, visit_append]

@[simp]
theorem visit_nil : visit [] = [] := by
  rw [visit]

end Stmt

end SourceOutline
