import SourceOutline.Proofs.Node.Traversal
import Mathlib.Algebra.BigOperators.Group.List.Basic
import Mathlib.Algebra.GroupWithZero.Nat
import Mathlib.Logic.Function.Iterate

/-!
# The order of a walk

A walk through a tree is a loop over the trees that are pending. Here it is held against the tree
itself: against the list that **one recursion** over the tree makes, a node and then all of each
child in turn (`Node.preorder`), and against the **places** of the tree. A place says by the numbers
of the children which way to go from the root (`Node.at?`); so a parent's place begins those of its
children, and children are in the order of their numbers, which makes the order of a walk that of
words in a dictionary.

**Main result** (`Node.walk_eq_preorder`): the loop ends, after exactly as many rounds as the tree
has nodes, and the walk is the list of the recursion. Its nodes are those at the places of the tree
in ascending order, each place once. The loop that counts nodes takes them in another order, but
ends after as many rounds too, and comes to the length of the list. Both loops end for the same
reason: each round makes the total size of what is pending smaller by one
(`Node.sizeAll_afterRound`).
-/

namespace SourceOutline.Node

/-! ### The recursion -/

mutual

/-- The nodes of a tree: its root, then those of each child in turn. -/
def preorder : Node → List Node
  | mk kind position children => mk kind position children :: preorderAll children

/-- The nodes of trees, one tree after the other. -/
def preorderAll : List Node → List Node
  | [] => []
  | node :: rest => preorder node ++ preorderAll rest

end

theorem preorder_eq (node : Node) : node.preorder = node :: preorderAll node.children := by
  cases node
  rw [preorder, children]

theorem preorderAll_append (s t : List Node) :
    preorderAll (s ++ t) = preorderAll s ++ preorderAll t := by
  induction s with
  | nil => rw [List.nil_append, preorderAll, List.nil_append]
  | cons node s ih => rw [List.cons_append, preorderAll, preorderAll, ih, List.append_assoc]

/-- What is visited of pending trees is what the recursion makes of them. -/
theorem visit_eq_preorderAll (pending : List Node) : visit pending = preorderAll pending := by
  fun_induction visit pending with
  | case1 => rw [preorderAll]
  | case2 node pending ih =>
    rw [ih, preorderAll_append, preorderAll, preorder_eq, List.cons_append]

/-! ### Places -/

/-- The node at a place, which gives the number of the child to go to at each node on the way. -/
def at? : Node → List Nat → Option Node
  | node, [] => some node
  | node, number :: place => node.children[number]?.bind (·.at? place)

mutual

/-- The places of a tree: the root, then those in each child in turn. -/
def places : Node → List (List Nat)
  | mk _ _ children => [] :: placesFrom 0 children

/-- The places in children that are numbered from a number on. -/
def placesFrom (number : Nat) : List Node → List (List Nat)
  | [] => []
  | child :: rest => (places child).map (number :: ·) ++ placesFrom (number + 1) rest

end

theorem places_eq (node : Node) : node.places = [] :: placesFrom 0 node.children := by
  cases node
  rw [places, children]

/-- The places in children begin with the number of the child. -/
theorem mem_placesFrom_iff {number : Nat} {nodes : List Node} {place : List Nat} :
    place ∈ placesFrom number nodes ↔ ∃ index child rest, nodes[index]? = some child ∧
      rest ∈ child.places ∧ place = (number + index) :: rest := by
  induction nodes generalizing number with
  | nil => simp [placesFrom]
  | cons node nodes ih =>
    rw [placesFrom, List.mem_append, List.mem_map, ih]
    constructor
    · rintro (⟨rest, hrest, rfl⟩ | ⟨index, child, rest, hchild, hrest, rfl⟩)
      · exact ⟨0, node, rest, rfl, hrest, rfl⟩
      · exact ⟨index + 1, child, rest, hchild, hrest, by rw [Nat.add_right_comm, Nat.add_assoc]⟩
    · rintro ⟨_ | index, child, rest, hchild, hrest, rfl⟩
      · obtain rfl := Option.some_inj.mp hchild
        exact .inl ⟨rest, hrest, rfl⟩
      · exact .inr ⟨index, child, rest, hchild, hrest,
          by rw [Nat.add_right_comm, Nat.add_assoc]⟩

/-- The places of a tree are those at which there is a node. -/
theorem mem_places_iff {node : Node} {place : List Nat} :
    place ∈ node.places ↔ (node.at? place).isSome := by
  induction place generalizing node with
  | nil => rw [places_eq, at?]; simp
  | cons number place ih =>
    rw [places_eq, List.mem_cons, mem_placesFrom_iff, at?, Option.isSome_bind,
      Option.any_eq_true]
    constructor
    · rintro (hroot | ⟨index, child, rest, hchild, hrest, hplace⟩)
      · cases hroot
      · obtain ⟨rfl, rfl⟩ := List.cons.inj hplace
        rw [Nat.zero_add]
        exact ⟨child, hchild, ih.mp hrest⟩
    · rintro ⟨child, hchild, hrest⟩
      exact .inr ⟨number, child, place, hchild, ih.mpr hrest, by rw [Nat.zero_add]⟩

mutual

/-- The places of a tree ascend. -/
theorem pairwise_places : (node : Node) → node.places.Pairwise (List.Lex (· < ·))
  | mk _ _ children => by
    rw [places, List.pairwise_cons]
    refine ⟨fun place hplace => ?_, pairwise_placesFrom 0 children⟩
    obtain ⟨index, child, rest, -, -, rfl⟩ := mem_placesFrom_iff.mp hplace
    exact .nil

theorem pairwise_placesFrom (number : Nat) :
    (nodes : List Node) → (placesFrom number nodes).Pairwise (List.Lex (· < ·))
  | [] => by rw [placesFrom]; exact .nil
  | child :: nodes => by
    rw [placesFrom, List.pairwise_append, List.pairwise_map]
    refine ⟨(pairwise_places child).imp .cons, pairwise_placesFrom (number + 1) nodes, ?_⟩
    rintro place hplace other hother
    obtain ⟨rest, -, rfl⟩ := List.mem_map.mp hplace
    obtain ⟨index, -, rest', -, -, rfl⟩ := mem_placesFrom_iff.mp hother
    exact .rel (by omega)

end

mutual

/-- The nodes at the places of a tree are those of the recursion. -/
theorem map_at?_places : (node : Node) → node.places.map node.at? = node.preorder.map some
  | mk kind position children => by
    have hchildren := map_at?_placesFrom kind position [] children
    rw [List.length_nil, List.nil_append] at hchildren
    rw [places, preorder, List.map_cons, List.map_cons, at?, hchildren]

/-- Those behind the first children are numbered from the number of these. -/
theorem map_at?_placesFrom (kind : Kind) (position : Position) (front : List Node) :
    (nodes : List Node) →
      (placesFrom front.length nodes).map (mk kind position (front ++ nodes)).at? =
        (preorderAll nodes).map some
  | [] => by rw [placesFrom, preorderAll, List.map_nil, List.map_nil]
  | child :: nodes => by
    have hchild : ((mk kind position (front ++ child :: nodes)).at? ∘ (front.length :: ·)) =
        child.at? := by
      funext place
      simp [at?, Node.children]
    have hrest := map_at?_placesFrom kind position (front ++ [child]) nodes
    rw [List.length_append, List.length_singleton, List.append_assoc, List.singleton_append]
      at hrest
    calc (placesFrom front.length (child :: nodes)).map
          (mk kind position (front ++ child :: nodes)).at?
      _ = child.places.map child.at? ++ (placesFrom (front.length + 1) nodes).map
          (mk kind position (front ++ child :: nodes)).at? := by
        rw [placesFrom, List.map_append, List.map_map, hchild]
      _ = child.preorder.map some ++ (preorderAll nodes).map some := by
        rw [map_at?_places child, hrest]
      _ = (preorderAll (child :: nodes)).map some := by rw [preorderAll, List.map_append]

end

/-! ### Rounds -/

/-- What is pending after a round: the first tree is taken, and its children are put among the
others. -/
def afterRound (put : List Node → List Node → List Node) : List Node → List Node
  | [] => []
  | node :: pending => put node.children pending

theorem sizeAll_eq_zero_iff {pending : List Node} : sizeAll pending = 0 ↔ pending = [] := by
  cases pending with
  | nil => simp
  | cons node pending => simp [size_eq node]

section Rounds

variable {put : List Node → List Node → List Node}
  (hput : ∀ children pending, sizeAll (put children pending) = sizeAll children + sizeAll pending)

include hput

/-- **The step.** A round that loses no children makes what is pending smaller by one node. -/
theorem sizeAll_afterRound (pending : List Node) :
    sizeAll (afterRound put pending) = sizeAll pending - 1 := by
  cases pending with
  | nil => rfl
  | cons node pending =>
    rw [afterRound, hput, sizeAll_cons, size_eq node]
    omega

/-- **The run.** The loop ends, and not before all nodes are taken. -/
theorem iterate_afterRound_eq_nil_iff {rounds : Nat} {pending : List Node} :
    (afterRound put)^[rounds] pending = [] ↔ sizeAll pending ≤ rounds := by
  have hsize : sizeAll ((afterRound put)^[rounds] pending) = sizeAll pending - rounds := by
    induction rounds with
    | zero => rfl
    | succ rounds ih =>
      rw [Function.iterate_succ_apply', sizeAll_afterRound hput, ih, Nat.sub_sub]
  rw [← sizeAll_eq_zero_iff, hsize, Nat.sub_eq_zero_iff_le]

end Rounds

/-- The node that a round of a walk takes is the next one that is visited. -/
theorem head?_iterate_afterRound (rounds : Nat) (pending : List Node) :
    ((afterRound (· ++ ·))^[rounds] pending).head? = (visit pending)[rounds]? := by
  induction rounds generalizing pending with
  | zero => cases pending <;> simp [visit]
  | succ rounds ih =>
    rw [Function.iterate_succ_apply, ih]
    cases pending with
    | nil => simp [afterRound]
    | cons node pending => rw [afterRound, visit, List.getElem?_cons_succ]

/-- The nodes of a tree are one more than those of its children. -/
theorem count_eq_sum (tree : Node) : tree.count = 1 + (tree.children.map count).sum := by
  have hsize : ∀ node : Node, node.count = node.size := fun node => by
    rw [count, countPending_eq, sizeAll_cons, sizeAll_nil, Nat.zero_add, Nat.add_zero]
  have hsum : ∀ nodes : List Node, sizeAll nodes = (nodes.map count).sum := by
    intro nodes
    induction nodes with
    | nil => rfl
    | cons node nodes ih => rw [sizeAll_cons, ih, List.map_cons, List.sum_cons, hsize]
  rw [hsize, size_eq, hsum, Nat.add_comm]

/-- **A walk goes through a tree in order and ends.** The loop is over when as many rounds are done
as the recursion lists nodes, and not before; each round takes the node that is next in that list,
so the walk is this list. Its nodes are the ones at the places of the tree, each place once and in
ascending order. The loop that counts is over at the same time, and counts the nodes of the list:
the root and as many as there are in the children. -/
theorem walk_eq_preorder (tree : Node) :
    (∀ rounds, (afterRound (· ++ ·))^[rounds] [tree] = [] ↔ tree.preorder.length ≤ rounds) ∧
      (∀ rounds, ((afterRound (· ++ ·))^[rounds] [tree]).head? = tree.preorder[rounds]?) ∧
      tree.walk = tree.preorder ∧
      tree.places.map tree.at? = tree.walk.map some ∧
      tree.places.Pairwise (List.Lex (· < ·)) ∧
      (∀ place, place ∈ tree.places ↔ (tree.at? place).isSome) ∧
      (∀ rounds,
        (afterRound List.reverseAux)^[rounds] [tree] = [] ↔ tree.preorder.length ≤ rounds) ∧
      tree.count = tree.preorder.length ∧ tree.count = 1 + (tree.children.map count).sum := by
  have hwalk : tree.walk = tree.preorder := by
    rw [walk, visit_eq_preorderAll, preorderAll, preorderAll, List.append_nil]
  have hsize : sizeAll [tree] = tree.preorder.length := by
    rw [← hwalk, walk, length_visit]
  refine ⟨fun rounds => ?_, fun rounds => ?_, hwalk, ?_, pairwise_places tree,
    fun place => mem_places_iff, fun rounds => ?_, ?_, count_eq_sum tree⟩
  · rw [iterate_afterRound_eq_nil_iff sizeAll_append, hsize]
  · rw [head?_iterate_afterRound, ← hwalk, walk]
  · rw [hwalk, map_at?_places]
  · rw [iterate_afterRound_eq_nil_iff sizeAll_reverseAux, hsize]
  · rw [count_eq_length_walk, hwalk]

end SourceOutline.Node
