import SourceOutline.Proofs.Outline.Definitions
import SourceOutline.Proofs.Position.Order

/-!
# The nodes of an outline come in the order of the text

Each part of a program has a stretch of the text to itself, its **extent**, which for a definition
with decorators begins in front of them. How the extents of a program lie is what a grammar promises
(`Program.LiesIn`): those of one block one behind the other, those inside a part behind the start of
the part, and between the last decorator of a definition and its keyword a line feed, but no comment
that runs on to the keyword.

Nothing is said of where a node is placed; for a definition with decorators that is wherever the
search behind them arrives. In a text that has no lone carriage returns this is inside the extent
and not behind the keyword (`Part.LiesIn.offset_bounds`). **Main result**
(`Part.pairwise_position`): so each node but the root has a position behind those of all nodes that
the walk has met before.
-/

namespace SourceOutline

namespace Text

/-- Whether each carriage return of a text is followed by a line feed. -/
def PairsReturns (text : List Char) : Prop :=
  ∀ index < text.length, text[index]? = some '\r' → text[index + 1]? = some '\n'

instance (text : List Char) : Decidable (PairsReturns text) :=
  inferInstanceAs (Decidable (∀ index < text.length, _))

/-- Whether a text ends inside a comment: behind its last line end there is a `#`. -/
def EndsInComment (text : List Char) : Prop :=
  '#' ∈ text.reverse.takeWhile fun c => c != '\n' && c != '\r'

instance (text : List Char) : Decidable (EndsInComment text) :=
  inferInstanceAs (Decidable (_ ∈ _))

theorem PairsReturns.of_append {text before behind : List Char} (h : PairsReturns text)
    (htext : text = before ++ '\r' :: behind) : ∃ rest, behind = '\n' :: rest := by
  have hreturn : text[before.length]? = some '\r' := by simp [htext]
  have hnext := h before.length (by simp [htext]) hreturn
  cases behind with
  | nil => simp [htext] at hnext
  | cons c rest =>
    rw [htext, List.getElem?_append_right (Nat.le_add_right _ _), Nat.add_sub_cancel_left,
      List.getElem?_cons_succ, List.getElem?_cons_zero, Option.some_inj] at hnext
    exact ⟨rest, by rw [hnext]⟩

/-- Up to a line end a comment does not end. -/
theorem endsInComment_of_notMem {before comment : List Char} (hfeed : '\n' ∉ comment)
    (hreturn : '\r' ∉ comment) : EndsInComment (before ++ '#' :: comment) := by
  have hcomment : ∀ c ∈ comment.reverse, (c != '\n' && c != '\r') = true := by
    intro c hc
    rw [List.mem_reverse] at hc
    simp only [Bool.and_eq_true, bne_iff_ne]
    exact ⟨fun h => hfeed (h ▸ hc), fun h => hreturn (h ▸ hc)⟩
  rw [EndsInComment, List.reverse_append, List.reverse_cons, List.append_assoc,
    List.takeWhile_append_of_pos hcomment]
  exact List.mem_append_right _ List.mem_cons_self

end Text

namespace Outline

open Text

/-- A comment in front of code has ended at a line feed, if the text between does not end in it:
where it has ended at a carriage return, that is followed by a line feed, which is no code. -/
private theorem feed_mem_of_comment {front gap rest : List Char} {c : Char}
    (hreturns : PairsReturns (front ++ (gap ++ c :: rest))) (hc : BeginsCode c)
    (hgap : ¬ EndsInComment gap) :
    ∀ before comment, gap = before ++ '#' :: comment → '\n' ∈ comment := by
  rintro before comment rfl
  refine Decidable.byContradiction fun hfeed => ?_
  have hreturn : '\r' ∈ comment :=
    Decidable.byContradiction fun hnone => hgap (endsInComment_of_notMem hfeed hnone)
  obtain ⟨words, more, rfl⟩ := List.append_of_mem hreturn
  have htext : front ++ (before ++ '#' :: (words ++ '\r' :: more) ++ c :: rest) =
      (front ++ (before ++ '#' :: words)) ++ '\r' :: (more ++ c :: rest) := by
    simp only [List.append_assoc, List.cons_append]
  obtain ⟨behind, hbehind⟩ := hreturns.of_append htext
  cases more with
  | nil =>
    obtain ⟨rfl, -⟩ := List.cons.inj hbehind
    exact absurd hc.1 (by decide)
  | cons d more =>
    obtain ⟨rfl, -⟩ := List.cons.inj hbehind
    exact hfeed (List.mem_append_right _ (List.mem_cons_of_mem _ List.mem_cons_self))

end Outline

open Text Outline

/-! ### Definitions with decorators -/

/-- How a definition with decorators lies in a text that falls into what ends with the last
decorator, the gap behind it, and what begins with the definition's own word. -/
structure Stmt.LiesDecorated (text : List Char) (extent : Span) (stmt : Stmt)
    (front gap code : List Char) : Prop extends stmt.IsPlaced front gap code where
  text_eq : text = front ++ (gap ++ code)
  /-- The decorators are inside the extent too. -/
  extent_le : extent.start ≤ width front
  /-- Behind them there is a line feed. -/
  feed_mem : '\n' ∈ gap
  /-- No comment is left open where the word begins. -/
  not_comment : ¬ EndsInComment gap

namespace Stmt.LiesDecorated

variable {text front gap code : List Char} {extent : Span} {stmt : Stmt}

/-- The search for the keyword arrives between two characters. -/
theorem isBoundary_offset (h : stmt.LiesDecorated text extent front gap code) :
    IsBoundary text (keywordOffset text stmt.start stmt.decorators) := by
  obtain ⟨last, hlast, hstop⟩ := h.stop
  rw [h.text_eq]
  refine isBoundary_keywordOffset hlast hstop ⟨front ++ gap, code, ?_, h.start.symm⟩
  rw [List.append_assoc]

/-- The search for the keyword stays inside the extent, and goes no further than the keyword. -/
theorem offset_bounds (h : stmt.LiesDecorated text extent front gap code)
    (hreturns : PairsReturns text) :
    extent.start ≤ keywordOffset text stmt.start stmt.decorators ∧
      keywordOffset text stmt.start stmt.decorators ≤ stmt.start := by
  obtain ⟨last, hlast, hstop⟩ := h.stop
  obtain ⟨c, rest, rfl, hc⟩ := exists_beginsCode hlast h.word
  have hends := feed_mem_of_comment (h.text_eq ▸ hreturns) hc h.not_comment
  have hbounds := keywordOffset_le hlast hstop hc rest h.feed_mem hends stmt.start
  rw [← h.text_eq] at hbounds
  exact ⟨Nat.le_trans h.extent_le hbounds.1, h.start ▸ hbounds.2⟩

end Stmt.LiesDecorated

namespace Part

/-- How a part lies in a text, given the extents of all parts. -/
structure LiesIn (text : List Char) (extent : Part → Span) (part : Part) : Prop where
  /-- It starts between two characters. -/
  boundary : IsBoundary text part.start
  /-- It starts inside its extent, which for a definition is where its keyword stands. -/
  start_le : (extent part).start ≤ part.start
  start_lt : part.start < (extent part).stop
  /-- What it is made of lies inside its extent, behind its start. -/
  inside : ∀ inner ∈ part.parts,
    part.start < (extent inner).start ∧ (extent inner).stop ≤ (extent part).stop
  /-- What it is made of lies one behind the other. -/
  ordered : part.parts.Pairwise fun first second => (extent first).stop ≤ (extent second).start
  /-- Its decorators, if there are any, lie in front of its keyword. -/
  decorated : ∀ stmt, part = statement stmt → stmt.decorators ≠ [] →
    ∃ front gap code, stmt.LiesDecorated text (extent part) front gap code

variable {text : List Char} {extent : Part → Span} {part : Part}

namespace LiesIn

/-- Only a definition with decorators is placed elsewhere than where it starts. -/
private theorem offset_cases (h : part.LiesIn text extent) : part.offset text = part.start ∨
    ∃ stmt front gap code, part = statement stmt ∧
      stmt.LiesDecorated text (extent part) front gap code := by
  by_cases hnone : part.decorators = []
  · rw [offset, hnone]
    exact .inl rfl
  · cases part with
    | statement stmt =>
      obtain ⟨front, gap, code, hdecorated⟩ := h.decorated stmt rfl hnone
      exact .inr ⟨stmt, front, gap, code, rfl, hdecorated⟩
    | handler branch | matchCase branch => exact absurd rfl hnone

/-- A part is placed between two characters. -/
theorem isBoundary_offset (h : part.LiesIn text extent) : IsBoundary text (part.offset text) := by
  rcases h.offset_cases with hstart | ⟨stmt, front, gap, code, rfl, hdecorated⟩
  · rw [hstart]
    exact h.boundary
  · exact hdecorated.isBoundary_offset

/-- **A part is placed inside its extent**, and not behind its start. -/
theorem offset_bounds (hreturns : PairsReturns text) (h : part.LiesIn text extent) :
    (extent part).start ≤ part.offset text ∧ part.offset text ≤ part.start := by
  rcases h.offset_cases with hstart | ⟨stmt, front, gap, code, rfl, hdecorated⟩
  · rw [hstart]
    exact ⟨h.start_le, Nat.le_refl _⟩
  · exact hdecorated.offset_bounds hreturns

end LiesIn

/-! ### A walk through the parts -/

variable {pending : List Part}

/-- What a visit meets is not in front of what is pending. -/
private theorem le_offset_of_mem_visit (hreturns : PairsReturns text) {bound : Nat}
    (hbound : ∀ part ∈ pending, bound ≤ (extent part).start)
    (hlies : ∀ part ∈ visit pending, part.LiesIn text extent) :
    ∀ part ∈ visit pending, bound ≤ part.offset text := by
  fun_induction visit pending with
  | case1 => exact fun _ hpart => absurd hpart List.not_mem_nil
  | case2 part pending ih =>
    rw [List.forall_mem_cons] at hbound hlies ⊢
    have hpart := hlies.1
    refine ⟨Nat.le_trans hbound.1 (hpart.offset_bounds hreturns).1, ih ?_ hlies.2⟩
    rw [List.forall_mem_append]
    refine ⟨fun inner hinner => ?_, hbound.2⟩
    have hstart := Nat.le_trans hbound.1 hpart.start_le
    exact Nat.le_trans hstart (Nat.le_of_lt (hpart.inside inner hinner).1)

/-- **A visit meets the parts in the order of their places.** -/
theorem pairwise_offset_visit (hreturns : PairsReturns text)
    (hpending : pending.Pairwise fun first second => (extent first).stop ≤ (extent second).start)
    (hlies : ∀ part ∈ visit pending, part.LiesIn text extent) :
    (visit pending).Pairwise fun first second => first.offset text < second.offset text := by
  fun_induction visit pending with
  | case1 => exact .nil
  | case2 part pending ih =>
    rw [List.pairwise_cons] at hpending
    rw [List.forall_mem_cons] at hlies
    obtain ⟨hpart, hrest⟩ := hlies
    have hplace := (hpart.offset_bounds hreturns).2
    -- What comes next is inside the part, behind its start, or behind its end.
    have hbehind : ∀ next ∈ part.parts ++ pending, part.offset text + 1 ≤ (extent next).start := by
      rw [List.forall_mem_append]
      constructor
      · exact fun inner hinner => Nat.lt_of_le_of_lt hplace (hpart.inside inner hinner).1
      · exact fun next hnext =>
          Nat.lt_of_le_of_lt hplace (Nat.lt_of_lt_of_le hpart.start_lt (hpending.1 next hnext))
    have hnext : (part.parts ++ pending).Pairwise
        fun first second => (extent first).stop ≤ (extent second).start :=
      List.pairwise_append.mpr ⟨hpart.ordered, hpending.2, fun inner hinner next hnext =>
        Nat.le_trans (hpart.inside inner hinner).2 (hpending.1 next hnext)⟩
    exact .cons (le_offset_of_mem_visit hreturns hbehind hrest) (ih hnext hrest)

end Part

/-- How a program lies in its text, given the extents of its parts: those of its outermost block one
behind the other, and each part with what it is made of. -/
structure Program.LiesIn (text : List Char) (extent : Part → Span) (program : List Stmt) :
    Prop where
  ordered : (program.map Part.statement).Pairwise
    fun first second => (extent first).stop ≤ (extent second).start
  lies : ∀ part ∈ Part.ofProgram program, part.LiesIn text extent

/-- **The nodes of the parts have ascending positions.** -/
theorem Part.pairwise_position {text : List Char} {extent : Part → Span} {program : List Stmt}
    (hreturns : Text.PairsReturns text) (h : Program.LiesIn text extent program) :
    (((ofProgram program).map (node (.ofText text))).map Node.position).Pairwise (· < ·) := by
  rw [List.pairwise_map, List.pairwise_map]
  refine (pairwise_offset_visit hreturns h.ordered h.lies).imp_of_mem fun hfirst hsecond hlt => ?_
  rw [position_node, position_node]
  exact LineTable.position_lt_position (h.lies _ hfirst).isBoundary_offset
    (h.lies _ hsecond).isBoundary_offset hlt

end SourceOutline
