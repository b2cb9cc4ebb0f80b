import SourceOutline.Proofs.Report.Pushing

/-!
# Rules and the tags they name

A rule names a tag, and its handler looks at the kind of a node once more. Both tell the same nodes
apart (`entry?_cases`): the handler makes an entry of a node exactly if the node has the tag of the
rule, but for assignments without a name among their targets, of which no rule makes one. So it does
not matter that a node is only given to the rules for its tag.

**Main result** (`classify_eq_filterMap_all`): a node's entries are those that all handlers make of
it, and each belongs where it is filed.
-/

namespace SourceOutline

/-- Whether a kind is that of assignments without a name among their targets. -/
def Node.Kind.AssignsNoName (kind : Node.Kind) : Prop :=
  ∃ targets, kind = .assign targets ∧ ∀ id, TargetShape.name id ∉ targets

theorem Node.Kind.AssignsNoName.tag_eq {kind : Node.Kind} (h : kind.AssignsNoName) :
    kind.tag = .assign := by
  obtain ⟨targets, rfl, -⟩ := h
  rfl

/-- The targets have no names only if none of them is one. -/
theorem TargetShape.filterMap_name?_eq_nil_iff {targets : List TargetShape} :
    targets.filterMap name? = [] ↔ ∀ id, name id ∉ targets := by
  rw [List.filterMap_eq_nil_iff]
  constructor
  · intro h id hid
    exact absurd (h (name id) hid) (Option.some_ne_none id)
  · intro h target htarget
    cases target with
    | name id => exact absurd htarget (h id)
    | _ => rfl

namespace Rule

/-- An assignment makes an entry of the names among its targets, if there are any. -/
theorem assignmentEntry?_cases (targets : List TargetShape) (position : Position)
    (children : List Node) :
    (Node.Kind.assign targets).AssignsNoName ∧
      assignmentEntry? (.mk (.assign targets) position children) = none ∨
    ∃ entry, assignmentEntry? (.mk (.assign targets) position children) = some entry ∧
      entry.fits .assignments = true ∧ ¬(Node.Kind.assign targets).AssignsNoName := by
  simp only [Node.kind, assignmentEntry?]
  cases hnames : targets.filterMap TargetShape.name? with
  | nil =>
    exact .inl ⟨⟨targets, rfl, TargetShape.filterMap_name?_eq_nil_iff.mp hnames⟩, rfl⟩
  | cons name names =>
    refine .inr ⟨_, rfl, rfl, ?_⟩
    rintro ⟨_, ⟨⟩, hnone⟩
    have hnil := TargetShape.filterMap_name?_eq_nil_iff.mpr hnone
    exact List.cons_ne_nil name names (hnames.symm.trans hnil)

/-- **What the handler of a rule makes of a node**: an entry that belongs in the category of the
rule, if the node has the tag of the rule and is no assignment without names, and nothing else. -/
theorem entry?_cases {rule : Rule} (hrule : rule ∈ all) (node : Node) :
    (rule.entry? node = none ∧ ¬(rule.tag = node.kind.tag ∧ ¬node.kind.AssignsNoName)) ∨
    ∃ entry, rule.entry? node = some entry ∧ entry.fits rule.category = true ∧
      rule.tag = node.kind.tag ∧ ¬node.kind.AssignsNoName := by
  obtain ⟨kind, position, children⟩ := node
  simp only [all, List.mem_cons, List.not_mem_nil, or_false] at hrule
  cases kind with
  | assign targets =>
    -- Of the nine handlers eight do not look at assignments.
    rcases hrule with rfl | rfl | rfl | rfl | rfl | rfl | rfl | rfl | rfl
    case inr.inr.inr.inr.inr.inr.inl =>
      obtain ⟨hnamed, hnone⟩ | ⟨entry, hsome, hfits, hnamed⟩ :=
        assignmentEntry?_cases targets position children
      · exact .inl ⟨hnone, fun h => h.2 hnamed⟩
      · exact .inr ⟨entry, hsome, hfits, rfl, hnamed⟩
    all_goals exact .inl ⟨rfl, fun h => of_decide_eq_false rfl h.1⟩
  | _ =>
    rcases hrule with rfl | rfl | rfl | rfl | rfl | rfl | rfl | rfl | rfl <;>
      first
      | exact .inl ⟨rfl, fun h => of_decide_eq_false rfl h.1⟩
      | exact .inr ⟨_, rfl, rfl, rfl, fun h => of_decide_eq_false rfl h.tag_eq⟩

/-- **The handler of a rule and its tag agree**, but for assignments without names. -/
theorem isSome_entry?_iff {rule : Rule} (hrule : rule ∈ all) (node : Node) :
    (rule.entry? node).isSome = true ↔
      rule.tag = node.kind.tag ∧ ¬node.kind.AssignsNoName := by
  obtain ⟨hnone, hnot⟩ | ⟨entry, hsome, -, h⟩ := entry?_cases hrule node
  · rw [hnone]
    exact iff_of_false Bool.false_ne_true hnot
  · rw [hsome]
    exact iff_of_true rfl h

/-- An entry belongs in the category of the rule that made it. -/
theorem fits_of_entry? {rule : Rule} (hrule : rule ∈ all) {node : Node} {entry : Entry}
    (h : rule.entry? node = some entry) : entry.fits rule.category = true := by
  obtain ⟨hnone, -⟩ | ⟨made, hsome, hfits, -⟩ := entry?_cases hrule node
  · exact absurd (hnone.symm.trans h) (Option.some_ne_none entry).symm
  · rwa [← Option.some.inj (hsome.symm.trans h)]

end Rule

namespace Node

/-- What a node is classified as belongs where it is filed. -/
theorem fits_of_mem_classify {node : Node} {hit : Category × Entry} (h : hit ∈ node.classify) :
    hit.2.fits hit.1 = true := by
  obtain ⟨rule, hrule, hmade⟩ := List.mem_filterMap.mp h
  obtain ⟨entry, hentry, rfl⟩ := Option.map_eq_some_iff.mp hmade
  exact Rule.fits_of_entry? (List.mem_filter.mp hrule).1 hentry

/-- **All handlers together** make of a node what the rules for its tag make of it, in the order of
the table: each makes an entry exactly of nodes with its rule's tag, other than assignments without
names, and what it makes is taken where the rule files it. -/
theorem classify_eq_filterMap_all (node : Node) :
    node.classify = Rule.all.filterMap (fun rule => (rule.entry? node).map (rule.category, ·)) ∧
      (∀ rule ∈ Rule.all, (rule.entry? node).isSome = true ↔
        rule.tag = node.kind.tag ∧ ¬node.kind.AssignsNoName) ∧
      ∀ hit ∈ node.classify, ∀ report : Report, (report.push hit.1 hit.2).2 = true := by
  refine ⟨?_, fun rule hrule => Rule.isSome_entry?_iff hrule node, ?_⟩
  · rw [classify, List.filterMap_filter]
    refine List.filterMap_congr fun rule hrule => ?_
    by_cases htag : rule.tag = node.kind.tag
    · rw [if_pos (beq_iff_eq.mpr htag)]
    · have hnone : rule.entry? node = none := by
        rw [← Option.not_isSome_iff_eq_none, Rule.isSome_entry?_iff hrule]
        exact fun h => htag h.1
      rw [if_neg (mt beq_iff_eq.mp htag), hnone, Option.map_none]
  · intro hit hhit report
    rw [Report.push_snd]
    exact fits_of_mem_classify hhit

/-- Of an assignment to a member, two names and an item, one rule makes an entry, with the names;
of an assignment to a member only none does. -/
theorem classify_eq_filterMap_all_names :
    let named : Node := .mk (.assign [.member, .name "x", .subscript, .name "y"]) ⟨2, 1⟩ []
    let unnamed : Node := .mk (.assign [.member]) ⟨3, 1⟩ []
    Rule.all.filterMap (fun rule => (rule.entry? named).map (rule.category, ·)) =
        [(.assignments, .assignment ⟨["x", "y"], 2⟩)] ∧
      ∀ rule ∈ Rule.all, ¬(rule.entry? unnamed).isSome = true := by
  intro named unnamed
  refine ⟨?_, ?_⟩
  · rw [← (classify_eq_filterMap_all named).1]
    rfl
  · intro rule hrule
    rw [(classify_eq_filterMap_all unnamed).2.1 rule hrule]
    exact fun h => h.2 ⟨_, rfl, fun id hid => absurd (List.mem_singleton.mp hid) nofun⟩

end Node

end SourceOutline
