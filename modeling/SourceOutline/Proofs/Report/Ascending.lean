import SourceOutline.Analysis
import SourceOutline.Proofs.Outline.Extent
import SourceOutline.Proofs.Response.Fitting

/-!
# Reports tell of a program from top to bottom

What a report tells of nodes in one category are lines of these nodes, in their order
(`Report.lines_ofNodes_sublist`). The walk through an outline meets the nodes in the order of the
text. So **the entries of each category are told in the order of their lines**, those of definitions
with decorators too (`Outline.pairwise_walk_ofProgram`).
-/

namespace SourceOutline

namespace Report

/-- One construct adds at most one entry to each category, with its own line. -/
private theorem lines_ofKind_sublist (line : Nat) (kind : Node.Kind) (category : Category) :
    (((ofKind line kind).entries category).map Entry.line).Sublist [line] := by
  cases kind with
  | assign targets =>
    rw [ofKind, ofAssignment]
    split
    · cases category <;> exact List.nil_sublist _
    · cases category with
      | assignments => exact List.Sublist.refl _
      | _ => exact List.nil_sublist _
  | _ => cases category <;> first | exact List.Sublist.refl _ | exact List.nil_sublist _

/-- **The lines told in one category** are lines of the nodes, in their order. -/
theorem lines_ofNodes_sublist (nodes : List Node) (category : Category) :
    (((ofNodes nodes).entries category).map Entry.line).Sublist
      (nodes.map fun node => node.position.line) := by
  induction nodes with
  | nil => cases category <;> exact List.nil_sublist _
  | cons node rest ih =>
    rw [ofNodes_cons, ofEntries_classify, entries_append, List.map_append, List.map_cons]
    exact (lines_ofKind_sublist _ _ category).append ih

end Report

namespace Outline

variable {text : List Char} {extent : Part → Span} {program : List Stmt}

/-- **Behind its root the walk through an outline goes down the text**, and so does the report in
each category: if the parts of the program lie in the text as a grammar promises, each node has a
position behind those before it, and no entry a line above that of an entry before it. -/
theorem pairwise_walk_ofProgram (hreturns : Text.PairsReturns text)
    (hlies : Program.LiesIn text extent program) :
    let tree := ofProgram (.ofText text) program
    (tree.walk.tail.map Node.position).Pairwise (· < ·) ∧
      ∀ category, (((Report.ofTree tree).entries category).map Entry.line).Pairwise (· ≤ ·) := by
  intro tree
  have hwalk : tree.walk = tree :: (Part.ofProgram program).map (Part.node (.ofText text)) :=
    Part.walk_ofProgram _ program
  have hpositions := Part.pairwise_position hreturns hlies
  rw [Report.ofTree_eq_ofNodes, hwalk, List.tail_cons]
  refine ⟨hpositions, fun category => ?_⟩
  -- The root adds nothing to the report.
  rw [Report.ofNodes_cons, Report.ofEntries_classify]
  have hroot : Report.ofKind tree.position.line tree.kind = {} := rfl
  rw [hroot, Report.empty_append]
  refine List.Pairwise.sublist (Report.lines_ofNodes_sublist _ category) ?_
  rw [List.pairwise_map] at hpositions ⊢
  exact hpositions.imp Position.line_le_of_lt

/-- An assignment is made of nothing else, and has no decorators. -/
private theorem liesIn_assign {start : Nat} {targets : List Expr}
    (hboundary : Text.IsBoundary text start)
    (hextent : extent (.statement (.assign start targets)) = ⟨start, start + 5⟩) :
    (Part.statement (.assign start targets)).LiesIn text extent where
  boundary := hboundary
  start_le := Nat.le_of_eq (congrArg Span.start hextent)
  start_lt := by
    rw [hextent]
    exact Nat.lt_add_of_pos_right (by decide)
  inside := nofun
  ordered := .nil
  decorated := by
    rintro stmt ⟨⟩ hdecorators
    exact absurd rfl hdecorators

/-- A class behind a decorator whose bracket is closed on a line of its own, and an assignment. -/
private def closedBelow : List Stmt :=
  [.classDef 13 [⟨2, 3⟩] "C" [.assign 24 [.name ⟨24, 25⟩ "x"]], .assign 31 [.name ⟨31, 32⟩ "y"]]

/-- The extents of its parts: five bytes for an assignment, and all in front of the last one for the
class. -/
private def closedBelowExtent (part : Part) : Span :=
  if part.start = 13 then ⟨0, 29⟩ else ⟨part.start, part.start + 5⟩

/-- Whether the program is what was read. -/
private def isClosedBelow : Except SyntaxError (List Stmt) → Bool
  | .ok [.classDef 13 [⟨2, 3⟩] "C" [.assign 24 [.name ⟨24, 25⟩ "x"]],
      .assign 31 [.name ⟨31, 32⟩ "y"]] => true
  | _ => false

/-- The class is placed at the bracket, on a line in front of its keyword, and still in order. -/
theorem pairwise_walk_ofProgram_closedBelow :
    let text := "@(a\r\n)\r\n# c\r\nclass C:\r\n x = 1\r\ny = 2\r\n".toList
    let tree := ofProgram (.ofText text) closedBelow
    (Source.ofText text).program = .ok closedBelow ∧ Text.PairsReturns text ∧
      Program.LiesIn text closedBelowExtent closedBelow ∧
      tree.walk.tail.map Node.position = [⟨2, 1⟩, ⟨5, 2⟩, ⟨6, 1⟩] ∧
      (tree.walk.tail.map Node.position).Pairwise (· < ·) ∧
      ∀ category, (((Report.ofTree tree).entries category).map Entry.line).Pairwise (· ≤ ·) := by
  intro text tree
  have hprogram : (Source.ofText text).program = .ok closedBelow := by
    have hread : isClosedBelow (Source.ofText text).program = true := by decide +kernel
    generalize (Source.ofText text).program = result at hread ⊢
    unfold isClosedBelow at hread
    split at hread
    · rfl
    · exact absurd hread Bool.false_ne_true
  have hreturns : Text.PairsReturns text := by decide
  have hlies : Program.LiesIn text closedBelowExtent closedBelow := by
    refine ⟨by simp [closedBelow, closedBelowExtent, Part.start, Stmt.start], ?_⟩
    simp only [closedBelow, Part.ofProgram, List.map_cons, List.map_nil, Part.visit, Part.parts,
      Stmt.parts, Stmt.nested, List.cons_append, List.nil_append, List.forall_mem_cons]
    refine ⟨⟨⟨text.take 13, text.drop 13, (List.take_append_drop _ _).symm, by decide⟩, by decide,
        by decide, by decide, List.pairwise_singleton _ _, ?_⟩,
      liesIn_assign ⟨text.take 24, text.drop 24, (List.take_append_drop _ _).symm, by decide⟩ rfl,
      liesIn_assign ⟨text.take 31, text.drop 31, (List.take_append_drop _ _).symm, by decide⟩ rfl,
      fun _ hpart => absurd hpart List.not_mem_nil⟩
    rintro stmt ⟨⟩ -
    exact ⟨"@(a".toList, "\r\n)\r\n# c\r\n".toList, "class C:\r\n x = 1\r\ny = 2\r\n".toList,
      ⟨⟨⟨2, 3⟩, rfl, by decide⟩, by decide, by decide⟩, by decide, by decide, by decide, by decide⟩
  have hpositions : tree.walk.tail.map Node.position = [⟨2, 1⟩, ⟨5, 2⟩, ⟨6, 1⟩] := by
    decide +kernel
  exact ⟨hprogram, hreturns, hlies, hpositions, pairwise_walk_ofProgram hreturns hlies⟩

end Outline

end SourceOutline
