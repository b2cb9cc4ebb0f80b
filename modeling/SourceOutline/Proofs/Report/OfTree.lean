import SourceOutline.Proofs.Report.Dispatch

/-!
# The report of a tree, read off the tree

The entries of nodes in a category are what the single nodes are classified as, one node after the
other (`entries_ofNodes`). As the walk through a tree goes from the root through one child after the
other, a report is made of what the root is classified as and of the **reports of the children**.

**Main result** (`ofTree_eq_recursion`): this recursion; that nothing is refused on the way; and
which trees there is nothing to report of.
-/

namespace SourceOutline

/-- The kinds that reports are about. Of assignments these are the ones to a name. -/
inductive Node.Kind.IsReported : Node.Kind → Prop
  | function {name : String} {params : List String} : IsReported (.function name params)
  | classDef {name : String} : IsReported (.classDef name)
  | forLoop : IsReported .forLoop
  | whileLoop : IsReported .whileLoop
  | conditional : IsReported .conditional
  | assign {targets : List TargetShape} {id : String} (h : .name id ∈ targets) :
    IsReported (.assign targets)
  | importModules {modules : List String} : IsReported (.importModules modules)
  | importFrom {module : Option String} {names : List String} :
    IsReported (.importFrom module names)

namespace Report

/-! ### The entries of nodes -/

theorem ofEntries_append (s t : List (Category × Entry)) :
    ofEntries (s ++ t) = ofEntries s ++ ofEntries t := by
  rw [ofEntries, pushAll_append_fst, pushAll_fst, ← ofEntries]

/-- Nodes are filed one after the other. -/
theorem ofNodes_eq_ofEntries (nodes : List Node) :
    ofNodes nodes = ofEntries (nodes.flatMap Node.classify) := by
  induction nodes with
  | nil => rfl
  | cons node rest ih => rw [ofNodes_cons, List.flatMap_cons, ofEntries_append, ih]

/-- What nodes are classified as belongs where it is filed, all of it. -/
theorem fits_of_mem_flatMap_classify {nodes : List Node} {hit : Category × Entry}
    (h : hit ∈ nodes.flatMap Node.classify) : hit.2.fits hit.1 = true := by
  obtain ⟨node, -, hclassify⟩ := List.mem_flatMap.mp h
  exact Node.fits_of_mem_classify hclassify

/-- The entries of nodes are what the single nodes are classified as. -/
theorem entries_ofNodes (nodes : List Node) (category : Category) :
    (ofNodes nodes).entries category
      = nodes.flatMap fun node => filed category node.classify := by
  have hempty : ({} : Report).entries category = [] := by
    cases category <;> rfl
  have hall : fitting (nodes.flatMap Node.classify) = nodes.flatMap Node.classify :=
    List.filter_eq_self.mpr fun _ hhit => fits_of_mem_flatMap_classify hhit
  calc (ofNodes nodes).entries category
      = (ofEntries (nodes.flatMap Node.classify)).entries category := by rw [ofNodes_eq_ofEntries]
    _ = filed category (nodes.flatMap Node.classify) := by
        rw [ofEntries, entries_pushAll, hempty, List.nil_append, hall]
    _ = nodes.flatMap fun node => filed category node.classify := by
        rw [filed, List.filter_flatMap, List.map_flatMap]
        rfl

/-! ### Nothing to report -/

theorem isEmpty_append_iff {front back : Report} :
    (front ++ back).isEmpty = true ↔ front.isEmpty = true ∧ back.isEmpty = true := by
  simp only [isEmpty_iff, entries_append, List.append_eq_nil_iff, forall_and]

/-- Of constructs of a kind there is nothing to report exactly if reports are not about the kind. -/
theorem isEmpty_ofKind_iff {line : Nat} {kind : Node.Kind} :
    (ofKind line kind).isEmpty = true ↔ ¬kind.IsReported := by
  cases kind with
  | assign targets =>
    have hreported : (Node.Kind.assign targets).IsReported ↔ ∃ id, .name id ∈ targets := by
      constructor
      · intro h
        cases h with
        | assign hid => exact ⟨_, hid⟩
      · rintro ⟨id, hid⟩
        exact .assign hid
    rw [hreported, not_exists, ← TargetShape.filterMap_name?_eq_nil_iff, ofKind, ofAssignment]
    split
    · next h => exact iff_of_true rfl h
    · next h => exact iff_of_false Bool.false_ne_true h
  | module | other =>
    refine iff_of_true rfl ?_
    rintro ⟨⟩
  | function => exact iff_of_false Bool.false_ne_true (not_not_intro .function)
  | classDef => exact iff_of_false Bool.false_ne_true (not_not_intro .classDef)
  | forLoop => exact iff_of_false Bool.false_ne_true (not_not_intro .forLoop)
  | whileLoop => exact iff_of_false Bool.false_ne_true (not_not_intro .whileLoop)
  | conditional => exact iff_of_false Bool.false_ne_true (not_not_intro .conditional)
  | importModules => exact iff_of_false Bool.false_ne_true (not_not_intro .importModules)
  | importFrom => exact iff_of_false Bool.false_ne_true (not_not_intro .importFrom)

theorem isEmpty_ofNodes_iff {nodes : List Node} :
    (ofNodes nodes).isEmpty = true ↔ ∀ node ∈ nodes, ¬node.kind.IsReported := by
  induction nodes with
  | nil => exact iff_of_true rfl fun _ hnode => absurd hnode List.not_mem_nil
  | cons node rest ih =>
    calc (ofNodes (node :: rest)).isEmpty = true
      _ ↔ (ofKind node.position.line node.kind).isEmpty = true ∧ (ofNodes rest).isEmpty = true := by
        rw [ofNodes_cons, ofEntries_classify, isEmpty_append_iff]
      _ ↔ ¬node.kind.IsReported ∧ ∀ other ∈ rest, ¬other.kind.IsReported := by
        rw [isEmpty_ofKind_iff, ih]
      _ ↔ ∀ other ∈ node :: rest, ¬other.kind.IsReported := by rw [List.forall_mem_cons]

/-! ### Trees -/

/-- **The report of a tree is one recursion.** In each category it has what the root is classified
as there, and behind that the entries of the children's reports, from left to right. All that the
nodes are classified as is taken, the comments are the functions, and the report is empty exactly if
reports are about none of the nodes in the tree. -/
theorem ofTree_eq_recursion (tree : Node) :
    (∀ category, (ofTree tree).entries category
        = filed category tree.classify ++
          tree.children.flatMap fun child => (ofTree child).entries category) ∧
      (({} : Report).pushAll (tree.walk.flatMap Node.classify)).1 = ofTree tree ∧
      false ∉ (({} : Report).pushAll (tree.walk.flatMap Node.classify)).2 ∧
      (ofTree tree).comments = (ofTree tree).functions ∧
      ((ofTree tree).isEmpty = true ↔ ∀ node : Node, node.Occurs tree → ¬node.kind.IsReported) := by
  refine ⟨fun category => ?_, ?_, ?_, comments_ofNodes tree.walk, ?_⟩
  · have hentries : ∀ node : Node, (ofTree node).entries category
        = node.walk.flatMap fun node => filed category node.classify :=
      fun node => entries_ofNodes node.walk category
    simp only [hentries]
    rw [Node.walk_eq, List.flatMap_cons, List.flatMap_assoc]
  · exact (ofNodes_eq_ofEntries tree.walk).symm
  · rw [pushAll_snd]
    intro hrefused
    obtain ⟨hit, hhit, hfits⟩ := List.mem_map.mp hrefused
    exact absurd (fits_of_mem_flatMap_classify hhit) (ne_true_of_eq_false hfits)
  · rw [ofTree_eq_ofNodes, isEmpty_ofNodes_iff]
    exact forall_congr' fun node => by rw [Node.mem_walk_iff]

end Report

end SourceOutline
