import SourceOutline.Proofs.Grammar.Comprehension
import SourceOutline.Proofs.Target.FirstInvalid
import SourceOutline.Proofs.Target.Shapes

/-!
# Targets of comprehensions

Whether a text that the grammar reads is accepted hangs on the targets of its statements alone
(`accepted_iff_targetsInAll`). A comprehension has the targets of its loops inside an expression,
where nothing looks for them.

**Main result** (`loop_targets_unchecked_in_comprehensions`): whatever the grammar reads as the
target of a `for` is refused there unless it can be assigned to, with what cannot be as the reason.
The same tokens are read as the target of a comprehension, and that text is always accepted.
-/

namespace SourceOutline

open Grammar
open Token.Kind (weightAll)

variable {text : List Char} {program : List Stmt}

/-- What the grammar reads are the statements of the text, if no target among them is invalid. -/
theorem Source.program_eq_ok [CharacterNames] (h : Program.ofText text = .ok program)
    (hnone : firstInvalid? program = none) : (Source.ofText text).program = .ok program := by
  simp only [Source.program, Source.ofText, h, hnone]

theorem Source.program_eq_error [CharacterNames] (h : Program.ofText text = .ok program)
    {invalid : InvalidTarget} (hsome : firstInvalid? program = some invalid) :
    (Source.ofText text).program = .error (.ofTarget (.ofText text) invalid) := by
  simp only [Source.program, Source.ofText, h, hsome]

/-- **Only the targets of statements matter.** -/
theorem accepted_iff_targetsInAll [CharacterNames] (h : Program.ofText text = .ok program) :
    (validate text = .ok () ↔
      ∀ target ∈ Stmt.targetsInAll program, IsTarget target.1 target.2) ∧
    ((∃ report, analyze text = .ok report) ↔
      ∀ target ∈ Stmt.targetsInAll program, IsTarget target.1 target.2) := by
  rw [← (firstInvalid?_eq_iff program).1, validate, analyze, parse]
  cases hfirst : firstInvalid? program with
  | none =>
    rw [Source.program_eq_ok h hfirst]
    exact ⟨⟨fun _ => rfl, fun _ => rfl⟩, fun _ => rfl, fun _ => ⟨_, rfl⟩⟩
  | some invalid =>
    rw [Source.program_eq_error h hfirst]
    refine ⟨⟨fun h => ?_, fun h => ?_⟩, fun h => ?_, fun h => ?_⟩
    · cases h
    · cases h
    · obtain ⟨report, h⟩ := h
      cases h
    · cases h

/-- The tokens of the text are of these kinds, and it can be read to its end. -/
def HasTokens (text : List Char) (kinds : List Token.Kind) : Prop :=
  (State.ofStream (TokenStream.ofText text).settleWords).StandsBefore kinds

variable {kinds : List Token.Kind}

theorem weightAll_le_of_hasTokens (h : HasTokens text kinds) :
    weightAll kinds ≤ text.length + 1 := by
  have hload := TokenStream.weightAll_ofText_le text
  rw [← TokenStream.weightAll_settleWords] at hload
  rw [← h.kinds, ← State.load_eq]
  exact hload

/-- What the rules for programs take is the program of the text. -/
theorem exists_program_of_hasTokens [CharacterNames] {IsProgram : List Stmt → Prop}
    (h : HasTokens text kinds) (hread : Reads kinds [] IsProgram
      (Grammar.program (Rules.level (text.length + 1)) (text.length + 1))) :
    ∃ program, Program.ofText text = .ok program ∧ IsProgram program := by
  rw [← List.append_nil kinds] at h
  obtain ⟨program, s', hprogram, hgood, -⟩ := hread h
  refine ⟨program, ?_, hgood⟩
  have hrun : Program.ofText text = ((Grammar.program (Rules.level (text.length + 1))
      (text.length + 1)) (State.ofStream (TokenStream.ofText text).settleWords)).map (·.1) := rfl
  rw [hrun, hprogram]
  rfl

/-! ### Expressions without their places -/

namespace Expr

mutual

theorem parts_bare : ∀ expr : Expr, expr.bare.parts = expr.parts.map bare
  | name _ _ => rfl
  | member _ => rfl
  | subscript _ => rfl
  | other _ _ => rfl
  | starred _ value => by rw [bare, parts, parts, parts_bare value, List.map_cons, bare]
  | tuple _ elements => by rw [bare, parts, parts, partsOf_bareAll elements, List.map_cons, bare]
  | list _ elements => by rw [bare, parts, parts, partsOf_bareAll elements, List.map_cons, bare]

theorem partsOf_bareAll : ∀ exprs : List Expr, partsOf (bareAll exprs) = (partsOf exprs).map bare
  | [] => rfl
  | expr :: rest => by
    rw [bareAll, partsOf, partsOf, parts_bare expr, partsOf_bareAll rest, List.map_append]

end

theorem text_bare (expr : Expr) : expr.bare.text = expr.text := by
  cases expr <;> rfl

/-- What cannot be assigned to does not hang on places. -/
theorem unassignable?_bare (expr : Expr) :
    expr.bare.unassignable? = expr.unassignable?.map bare := by
  have hrefuses : TargetUse.store.refuses ∘ bare = TargetUse.store.refuses := by
    funext expr
    cases expr <;> rfl
  rw [unassignable?_eq_find?, unassignable?_eq_find?, parts_bare, List.find?_map, hrefuses]

theorem isTarget_store_iff (expr : Expr) :
    IsTarget .store expr ↔ expr.unassignable? = none := by
  rw [isTarget_iff, unassignable?_eq_find?, List.find?_eq_none]
  simp only [Bool.not_eq_true]

end Expr

/-- Of a loop with nothing to do, only the target is looked at. -/
theorem firstInvalid?_forLoop {start body : Nat} {target : Expr} :
    firstInvalid? [.forLoop start false target [.simple body] []] =
      target.unassignable?.map (⟨·, .store⟩) := by
  have hvisit : Stmt.visit [.forLoop start false target [.simple body] []] =
      [.forLoop start false target [.simple body] [], .simple body] := by
    simp [Stmt.visit, Stmt.nested]
  rw [firstInvalid?, hvisit, List.findSome?_cons, Stmt.invalidTarget?]
  cases target.unassignable? with
  | none => rfl
  | some part => rfl

variable {source : String} {target : Expr}

/-- The target of a loop is checked. -/
theorem loop_target_checked [CharacterNames] (h : IsLoopTarget kinds source target)
    (htext : HasTokens text (loopOver kinds source ++ [colon, word .pass_, .newline])) :
    (IsTarget .store target → validate text = .ok ()) ∧
    (¬ IsTarget .store target → ∃ part ∈ target.parts, ∃ error : SyntaxError,
      error.message = "cannot assign to " ++ part.text ∧
      validate text = .error error ∧ analyze text = .error error) := by
  have hweight := weightAll_le_of_hasTokens htext
  rw [weightAll_loopOver] at hweight
  have hreads := h.reads (Nat.lt_of_succ_le hweight)
  rw [Rules.level_succ] at hreads
  obtain ⟨program, hread, start, placed, body, hbare, rfl⟩ :=
    exists_program_of_hasTokens htext (Reads.program_for hreads)
  have hfirst : firstInvalid? [.forLoop start false placed.expr [.simple body] []] =
      placed.expr.unassignable?.map (⟨·, .store⟩) := firstInvalid?_forLoop
  have hsame : placed.expr.unassignable?.map Expr.bare = target.unassignable?.map Expr.bare := by
    rw [← Expr.unassignable?_bare, hbare, Expr.unassignable?_bare]
  constructor
  · intro htarget
    rw [(Expr.isTarget_store_iff target).mp htarget, Option.map_none,
      Option.map_eq_none_iff] at hsame
    rw [hsame] at hfirst
    rw [validate, Source.program_eq_ok hread hfirst]
    rfl
  · intro htarget
    rw [Expr.isTarget_store_iff] at htarget
    obtain ⟨part, hpart⟩ := Option.ne_none_iff_exists'.mp htarget
    rw [hpart, Option.map_some, Option.map_eq_some_iff] at hsame
    obtain ⟨part', hpart', hsame⟩ := hsame
    rw [hpart'] at hfirst
    have hmem : part ∈ target.parts := by
      rw [Expr.unassignable?_eq_find?] at hpart
      exact List.mem_of_find?_eq_some hpart
    have herror := Source.program_eq_error hread hfirst
    -- What cannot be assigned to has other places in the program, but the same text.
    refine ⟨part, hmem, .ofTarget (.ofText text) ⟨part', .store⟩, ?_, ?_, ?_⟩
    · rw [SyntaxError.ofTarget, InvalidTarget.message]
      dsimp only
      rw [← Expr.text_bare, hsame, Expr.text_bare]
    · rw [validate, herror]
      rfl
    · rw [analyze, parse, herror]
      rfl

/-- The targets of comprehensions are not. -/
theorem comprehension_target_unchecked [CharacterNames] (h : IsLoopTarget kinds source target)
    (display : Display) {element : String}
    (htext : HasTokens text (display.comprehension element kinds source ++ [.newline])) :
    validate text = .ok () ∧ ∃ report, analyze text = .ok report := by
  have hweight := weightAll_le_of_hasTokens htext
  have hle := weightAll_comprehension display element kinds source [.newline]
  obtain ⟨depth, hdepth⟩ : ∃ depth, text.length + 1 = depth + 2 :=
    Nat.exists_eq_add_of_le' (by omega)
  have hreads : Reads kinds (word .in_ :: .name source :: closing display.bracket :: [.newline])
      (fun placed => placed.expr.bare = target.bare) (targetList (Rules.level (depth + 1))) :=
    h.reads (by omega)
  have hprogram : Reads (display.comprehension element kinds source ++ [.newline]) []
      (fun stmts => ∃ start, stmts = [.simple start])
      (Grammar.program (Rules.level (text.length + 1)) (text.length + 1)) := by
    rw [Rules.level_succ] at hreads
    rw [hdepth, Rules.level_succ, Rules.level_succ]
    exact Reads.program_comprehension display hreads
  obtain ⟨program, hread, start, rfl⟩ := exists_program_of_hasTokens htext hprogram
  have hnone : ∀ target ∈ Stmt.targetsInAll [.simple start], IsTarget target.1 target.2 := nofun
  obtain ⟨hvalidate, hanalyze⟩ := accepted_iff_targetsInAll hread
  exact ⟨hvalidate.mpr hnone, hanalyze.mpr hnone⟩

theorem atom_comprehension_of_isLoopTarget [CharacterNames] (h : IsLoopTarget kinds source target)
    (display : Display) {element : String} {rest : List Token.Kind} {depth : Nat}
    (hdepth : weightAll (display.comprehension element kinds source ++ rest) ≤ depth) :
    Reads (display.comprehension element kinds source) rest (IsForm display.form)
      (atom (Rules.level depth)) := by
  have hle := weightAll_comprehension display element kinds source rest
  have hreads : Reads kinds (word .in_ :: .name source :: closing display.bracket :: rest)
      (fun placed => placed.expr.bare = target.bare) (targetList (Rules.level depth)) :=
    h.reads (by omega)
  obtain ⟨depth, rfl⟩ : ∃ depth', depth = depth' + 1 := Nat.exists_eq_add_of_le' (by omega)
  rw [Rules.level_succ] at hreads ⊢
  exact Reads.atom_comprehension display hreads

/-- **The target of a loop is checked in a statement, but not in a comprehension.** -/
theorem loop_targets_unchecked_in_comprehensions [CharacterNames]
    (h : IsLoopTarget kinds source target) :
    (∀ text, HasTokens text (loopOver kinds source ++ [colon, word .pass_, .newline]) →
      (IsTarget .store target → validate text = .ok ()) ∧
      (¬ IsTarget .store target → ∃ part ∈ target.parts, ∃ error : SyntaxError,
        error.message = "cannot assign to " ++ part.text ∧
        validate text = .error error ∧ analyze text = .error error)) ∧
    ∀ (display : Display) (element : String),
      (∀ text, HasTokens text (display.comprehension element kinds source ++ [.newline]) →
        validate text = .ok () ∧ ∃ report, analyze text = .ok report) ∧
      ∀ rest depth, weightAll (display.comprehension element kinds source ++ rest) ≤ depth →
        Reads (display.comprehension element kinds source) rest (IsForm display.form)
          (atom (Rules.level depth)) :=
  ⟨fun _ htext => loop_target_checked h htext, fun display _ =>
    ⟨fun _ htext => comprehension_target_unchecked h display htext, fun _ _ hdepth =>
      atom_comprehension_of_isLoopTarget h display hdepth⟩⟩

/-- A call, which cannot be assigned to, is no target of a `for`, but one of each comprehension. -/
theorem loop_targets_unchecked_in_comprehensions_call :
    let kinds : List Token.Kind := [.name "f", opening .round, closing .round]
    ∃ target, IsLoopTarget kinds "y" target ∧ ¬ IsTarget .store target ∧
      (∃ error : SyntaxError, error.message = "cannot assign to function call" ∧
        validate "for f() in y: pass\n".toList = .error error ∧
        analyze "for f() in y: pass\n".toList = .error error) ∧
      validate "[x for f() in y]\n".toList = .ok () ∧
      validate "\x7bx for f() in y\x7d\n".toList = .ok () ∧
      validate "\x7bx: x for f() in y\x7d\n".toList = .ok () ∧
      validate "(x for f() in y)\n".toList = .ok () := by
  intro kinds
  let s := State.ofStream (TokenStream.ofText "f() in y".toList)
  have hread : (targetList (Rules.level 1) s).toOption.map (fun answer =>
      (answer.1.expr.parts.map Expr.text, answer.1.expr.unassignable?.isSome, answer.2.kinds)) =
      some (["function call"], true, [word .in_, .name "y", .newline]) := by
    decide +kernel
  obtain ⟨⟨placed, s'⟩, hanswer, hfacts⟩ := Option.map_eq_some_iff.mp hread
  obtain ⟨hparts, hrest⟩ := Prod.mk.inj hfacts
  obtain ⟨hrefused, hkinds⟩ := Prod.mk.inj hrest
  have htarget : targetList (Rules.level 1) s = .ok (placed, s') := by
    cases h : targetList (Rules.level 1) s with
    | error fault =>
      rw [h] at hanswer
      cases hanswer
    | ok answer =>
      rw [h] at hanswer
      exact congrArg Except.ok (Option.some.inj hanswer)
  have hcall : IsLoopTarget kinds "y" placed.expr :=
    ⟨1, s, placed, s', [.newline], Nat.lt_succ_self _, by decide +kernel, htarget, hkinds, rfl⟩
  have hnot : ¬ IsTarget .store placed.expr := by
    rw [Expr.isTarget_store_iff]
    exact Option.isSome_iff_ne_none.mp hrefused
  obtain ⟨hstatement, hdisplay⟩ := loop_targets_unchecked_in_comprehensions hcall
  obtain ⟨-, hloop⟩ := hstatement "for f() in y: pass\n".toList
    ⟨by decide +kernel, ⟨19, by decide +kernel⟩, Nat.lt_succ_self _⟩
  obtain ⟨part, hpart, error, hmessage, hvalidate, hanalyze⟩ := hloop hnot
  have hpart : part.text = "function call" := by
    have hmem := List.mem_map_of_mem (f := Expr.text) hpart
    rw [hparts] at hmem
    exact List.mem_singleton.mp hmem
  rw [hpart] at hmessage
  refine ⟨_, hcall, hnot, ⟨error, hmessage, hvalidate, hanalyze⟩, ?_, ?_, ?_, ?_⟩
  · exact ((hdisplay .list "x").1 _
      ⟨by decide +kernel, ⟨17, by decide +kernel⟩, Nat.lt_succ_self _⟩).1
  · exact ((hdisplay .set "x").1 _
      ⟨by decide +kernel, ⟨17, by decide +kernel⟩, Nat.lt_succ_self _⟩).1
  · exact ((hdisplay .dict "x").1 _
      ⟨by decide +kernel, ⟨20, by decide +kernel⟩, Nat.lt_succ_self _⟩).1
  · exact ((hdisplay .generator "x").1 _
      ⟨by decide +kernel, ⟨17, by decide +kernel⟩, Nat.lt_succ_self _⟩).1

end SourceOutline
