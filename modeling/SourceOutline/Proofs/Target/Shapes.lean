import SourceOutline.Analysis
import SourceOutline.Proofs.Outline.Parts
import SourceOutline.Proofs.Target.Language

/-!
# The shapes of the targets in an outline

An outline keeps of each assignment the shapes of its targets, and has one shape for all expressions
that are no target at all. These are the expressions that the search for invalid targets refuses,
so **a program that is accepted has none of them** (`shape_ne_other_of_parse`): wherever an
assignment stands in it, its targets are names, members, subscripts and what is unpacked, and so are
all parts of what is unpacked.
-/

namespace SourceOutline

namespace Outline

variable {source : Source}

/-- The shape for what is no target is that of the expressions that cannot be assigned to. -/
theorem shape_eq_other_iff (expr : Expr) :
    shape expr = .other ↔ TargetUse.store.refuses expr = true := by
  cases expr <;> simp [shape, TargetUse.refuses]

/-- The node of an assignment is that of an assignment statement. -/
theorem exists_assign_of_kind_node {part : Part} {shapes : List TargetShape}
    (h : (part.node source).kind = .assign shapes) :
    ∃ start targets, part = .statement (.assign start targets) ∧ shapes = targets.map shape := by
  cases part with
  | statement stmt =>
    cases stmt with
    | assign start targets =>
      obtain rfl : targets.map shape = shapes := Node.Kind.assign.inj h
      exact ⟨start, targets, rfl, rfl⟩
    | function start isAsync => cases isAsync <;> cases h
    | forLoop start isAsync => cases isAsync <;> cases h
    | conditional start =>
      rw [Part.node, ofStmt, Node.kind] at h
      split at h <;> cases h
    | _ => cases h
  | handler branch | matchCase branch => cases h

/-- An assignment that is not at fault has targets of all parts of which the shape is known. -/
theorem shape_ne_other_of_invalidTarget? {start : Nat} {targets : List Expr}
    (h : (Stmt.assign start targets).invalidTarget? = none) :
    ∀ target ∈ targets, ∀ part ∈ target.parts, shape part ≠ .other := by
  rw [Stmt.invalidTarget?, Option.map_eq_none_iff, Expr.firstUnassignable?_eq_find?,
    List.find?_eq_none, Expr.partsOf_eq_flatMap, List.forall_mem_flatMap] at h
  intro target htarget part hpart hshape
  exact h target htarget part hpart ((shape_eq_other_iff part).mp hshape)

end Outline

/-! ### Texts that are accepted -/

variable {text : List Char} {tree : Node}

/-- The statements of a program are those that the grammar reads, and none of them is at fault. -/
theorem Source.ofText_of_program [CharacterNames] {program : List Stmt}
    (h : (Source.ofText text).program = .ok program) :
    Program.ofText text = .ok program ∧ firstInvalid? program = none := by
  rw [Source.program, Source.ofText] at h
  split at h
  · cases h
  · next read hread =>
    split at h
    · cases h
    · next hfirst =>
      obtain rfl := Except.ok.inj h
      exact ⟨hread, hfirst⟩

/-- The outline of a text is that of its program. -/
theorem parse_eq_ok_iff [CharacterNames] : parse text = .ok tree ↔
    ∃ program, (Source.ofText text).program = .ok program ∧
      Outline.ofProgram (.ofText text) program = tree := by
  rw [parse]
  cases (Source.ofText text).program with
  | error error => simp [Except.map]
  | ok program => simp [Except.map]

/-- **The targets in the outline of a text are known by their shapes.** -/
theorem shape_ne_other_of_parse [CharacterNames] (h : parse text = .ok tree) :
    ∃ program, Program.ofText text = .ok program ∧
      ∀ node ∈ tree.walk, ∀ shapes, node.kind = .assign shapes →
        TargetShape.other ∉ shapes ∧
        ∃ start targets, Stmt.assign start targets ∈ Stmt.visit program ∧
          node = Outline.ofStmt (.ofText text) (.assign start targets) ∧
          shapes = targets.map Outline.shape ∧
          ∀ target ∈ targets, ∀ part ∈ target.parts, Outline.shape part ≠ .other := by
  obtain ⟨program, hprogram, rfl⟩ := parse_eq_ok_iff.mp h
  obtain ⟨hread, hfirst⟩ := Source.ofText_of_program hprogram
  refine ⟨program, hread, fun node hnode shapes hkind => ?_⟩
  rw [Part.walk_ofProgram, List.mem_cons, List.mem_map] at hnode
  rcases hnode with rfl | ⟨part, hpart, rfl⟩
  · cases hkind
  · obtain ⟨start, targets, rfl, rfl⟩ := Outline.exists_assign_of_kind_node hkind
    have hstmt := Part.statement_mem_ofProgram.mp hpart
    rw [firstInvalid?, List.findSome?_eq_none_iff] at hfirst
    have hparts := Outline.shape_ne_other_of_invalidTarget? (hfirst _ hstmt)
    refine ⟨fun hother => ?_, start, targets, hstmt, rfl, rfl, hparts⟩
    obtain ⟨target, htarget, hshape⟩ := List.mem_map.mp hother
    exact hparts target htarget target target.mem_parts hshape

/-- A target that is unpacked, with a starred list of targets in it, beside a name. -/
theorem shape_ne_other_of_parse_unpacked :
    let text := "if a:\n x, *[y.b, z[0]] = w = c\n".toList
    let shapes : List TargetShape := [.unpacking, .name "w"]
    ∃ tree, parse text = .ok tree ∧ ∃ node ∈ tree.walk, node.kind = .assign shapes ∧
      TargetShape.other ∉ shapes ∧ ∃ targets : List Expr, shapes = targets.map Outline.shape ∧
        ∀ target ∈ targets, ∀ part ∈ target.parts, Outline.shape part ≠ .other := by
  intro text shapes
  have hparse : (match parse text with
      | .ok tree => tree.walk.any (·.kind = .assign shapes)
      | .error _ => false) = true := by
    decide +kernel
  cases htree : parse text with
  | error error =>
    rw [htree] at hparse
    exact absurd hparse Bool.false_ne_true
  | ok tree =>
    rw [htree] at hparse
    obtain ⟨node, hnode, hkind⟩ := List.any_eq_true.mp hparse
    have hkind := of_decide_eq_true hkind
    obtain ⟨program, -, hall⟩ := shape_ne_other_of_parse htree
    obtain ⟨hother, start, targets, -, -, hshapes, hparts⟩ := hall node hnode shapes hkind
    exact ⟨tree, rfl, node, hnode, hkind, hother, targets, hshapes, hparts⟩

end SourceOutline
