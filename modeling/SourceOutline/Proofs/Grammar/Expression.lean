import SourceOutline.Proofs.Grammar.Bare
import SourceOutline.Proofs.Grammar.Literal
import SourceOutline.Proofs.Grammar.Shadows

/-!
# Expressions are read alike

Each rule of the grammar of expressions decides by the kinds of the tokens that it takes and of the
two behind them: built from rules that are shadowed by others (`Rules.Shadow`), it is shadowed by
the same rule built from those. There is one lemma for each rule.

A rule uses the rules for the expressions inside of it only behind a token that it takes. So each
level of them needs to answer for less than the level around it, and **there are never more levels
needed than what is left weighs** (`Rules.level_shadow`). For the expressions in a format string
this holds because they are written between the quotes of the literal, so the tokens of such an
expression weigh less than the literal.
-/

namespace SourceOutline.Grammar

open Token (Kind)
open Grammar.Parser

/-- The rules answer alike where less than a limit is left. -/
structure Rules.Shadow (limit : Nat) (rules rules' : Rules) : Prop where
  test : Shadows Anything limit (fun _ => 1) Placed.bare rules.test rules'.test
  disjunction : Shadows Anything limit (fun _ => 1) Placed.bare rules.disjunction rules'.disjunction
  operation : Shadows Anything limit (fun _ => 1) Placed.bare rules.operation rules'.operation
  embedded : ∀ text : List Char, text.length + 4 < limit → rules.embedded text = .ok () →
    rules'.embedded text = .ok ()

namespace Shadows

variable {first : Option Kind → Prop} {n : Nat} {rules rules' : Rules}

theorem anything {α ε : Type} {least : α → Nat} {view : α → ε} {p q : Parser α}
    (h : Shadows Anything n least view p q) : Shadows first n least view p q :=
  h.of_first fun _ _ => trivial

theorem of_zero {α ε : Type} {least : α → Nat} {view : α → ε} {p q q' : Parser α}
    (h : Shadows first 0 least view p q) : Shadows first 0 least view p q' := by
  intro s a s' hs hrounds hp
  obtain ⟨c, hbehind, hload, -⟩ := h hs hrounds hp
  exact ⟨c, hbehind, hload, fun t _ hlt => absurd hlt (Nat.not_lt_zero _)⟩

theorem isEmpty_of_map {α β : Type} {f : α → β} {s t : List α} (h : s.map f = t.map f) :
    s.isEmpty = t.isEmpty := by
  rw [← List.isEmpty_map (f := f), h, List.isEmpty_map]

theorem placedFrom {start start' : Nat} {make make' : Span → Expr}
    (h : ∀ span span', (make span).bare = (make' span').bare) :
    Shadows first n (fun _ => 0) Placed.bare (placedFrom start make) (placedFrom start' make') :=
  lastStop.bind fun _ _ _ => .pure (h _ _) rfl

theorem namedTest (h : rules.Shadow n rules') :
    Shadows first n (fun _ => 1) Placed.bare (namedTest rules) (namedTest rules') := by
  refine peek fun kind _ => second fun kind' => ?_
  split
  · simp only [discard_bind]
    exact (take_lead nofun nofun).lead fun _ _ _ => take.bind fun _ _ _ =>
      h.test.forget.bind fun _ _ _ => placedFrom fun _ _ => rfl
  · exact h.test.anything

/-- A star in front of an item. -/
theorem starred {item item' : Parser Placed}
    (h : Shadows Anything n (fun _ => 0) Placed.bare item item') :
    Shadows first n (fun _ => 1) Placed.bare (starred item) (starred item') := by
  refine (expect star (Nat.le_refl 1)).lead fun _ _ _ => h.bind fun value value' hvalue =>
    placedFrom fun _ _ => ?_
  rw [Expr.bare, Expr.bare, ← Placed.bare, hvalue, Placed.bare]

theorem starNamed (h : rules.Shadow n rules') :
    Shadows first n (fun _ => 1) Placed.bare (starNamed rules) (starNamed rules') :=
  ifAt star (starred h.operation.forget) (namedTest h)

theorem testOrStar (h : rules.Shadow n rules') :
    Shadows first n (fun _ => 1) Placed.bare (testOrStar rules) (testOrStar rules') :=
  ifAt star (starred h.operation.forget) h.test.anything

theorem operationOrStar (h : rules.Shadow n rules') :
    Shadows first n (fun _ => 1) Placed.bare (operationOrStar rules) (operationOrStar rules') :=
  ifAt star (starred h.operation.forget) h.operation.anything

theorem tupleOf {item item' : Parser Placed}
    (h : Shadows Anything n (fun _ => 1) Placed.bare item item') :
    Shadows first n (fun _ => 1) Placed.bareItem (tupleOf item) (tupleOf item') := by
  refine (commaList h.anything h.anything.forget).lead
    fun found found' hfound => ?_
  obtain ⟨items, trailing⟩ := found
  obtain ⟨items', trailing'⟩ := found'
  obtain ⟨hitems, rfl⟩ := Prod.mk.inj hfound
  dsimp only
  split
  · next one =>
    obtain ⟨one', rfl, hone⟩ := List.map_eq_singleton_iff.mp hitems.symm
    exact .pure (congrArg (·, true) hone.symm) rfl
  · next hnone =>
    split
    · next one' =>
      obtain ⟨one, rfl, -⟩ := List.map_eq_singleton_iff.mp hitems
      exact (hnone one rfl rfl).elim
    · refine (placedFrom fun span span' => ?_).bind fun a b hab =>
        .pure (congrArg (·, false) hab) rfl
      rw [Expr.bare, Expr.bare, Expr.bareAll_eq_map, Expr.bareAll_eq_map, List.map_map,
        List.map_map]
      exact congrArg _ hitems

theorem testList (h : rules.Shadow n rules') :
    Shadows first n (fun _ => 1) Placed.bare (testList rules) (testList rules') :=
  (tupleOf (testOrStar h)).lead fun _ _ hab => .pure (Prod.mk.inj hab).1 rfl

theorem targetList (h : rules.Shadow n rules') :
    Shadows first n (fun _ => 1) Placed.bare (targetList rules) (targetList rules') :=
  (tupleOf (operationOrStar h)).lead fun _ _ hab => .pure (Prod.mk.inj hab).1 rfl

theorem yieldValue (h : rules.Shadow n rules') :
    Shadows first n (fun _ => 1) Placed.bare (yieldValue rules) (yieldValue rules') := by
  refine (expect (.keyword .yield_) (Nat.le_refl 1)).lead fun _ _ _ =>
    ifAccept ?_ (ifAny startsElement ?_ ?_)
  · exact take.bind fun _ _ _ => h.test.forget.discard.bind fun _ _ _ => placedFrom fun _ _ => rfl
  · exact (testList h).forget.discard.bind fun _ _ _ => placedFrom fun _ _ => rfl
  · exact placedFrom fun _ _ => rfl

theorem comprehension (h : rules.Shadow n rules') :
    Shadows first n (fun _ => 0) blind (comprehension rules) (comprehension rules') := by
  have hcondition : Shadows (fun kind => kind.any (· == .keyword .if_) = true) n (fun _ => 1)
      Placed.bare (do discard Parser.take; rules.disjunction)
      (do discard Parser.take; rules'.disjunction) :=
    (take_lead nofun nofun).discard.lead fun _ _ _ => h.disjunction.forget
  refine (manyWhile (?_ : Shadows _ n (fun _ => 1) blind _ _)).discard
  refine accept.discard.bind fun _ _ _ => ?_
  refine (expect (.keyword .for_) (Nat.le_refl 1)).discard.lead fun _ _ _ => ?_
  refine (targetList h).forget.discard.bind fun _ _ _ => ?_
  refine expected.bind fun _ _ _ => ?_
  exact h.disjunction.forget.discard.bind fun _ _ _ => (manyWhile hcondition).discard

theorem enclosedItem (h : rules.Shadow n rules') :
    Shadows first n (fun _ => 1) Placed.bareItem (enclosedItem rules) (enclosedItem rules') := by
  have hitem : ∀ {first : Option Kind → Prop} (isPlain : Bool),
      Shadows first n (fun _ => 1) Placed.bareItem
        (do pure (← Grammar.starNamed rules, isPlain))
        (do pure (← Grammar.starNamed rules', isPlain)) :=
    fun isPlain => (starNamed h).lead fun _ _ hab => .pure (congrArg (·, isPlain) hab) rfl
  exact lookAt star (second fun _ => hitem _) (second fun _ => hitem _)

theorem enclosed (h : rules.Shadow n rules') :
    Shadows first n (fun _ => 0) Enclosed.bare (enclosed rules) (enclosed rules') := by
  have hvalues : ∀ {first : Option Kind → Prop} {a b : Placed × Bool},
      Placed.bareItem a = Placed.bareItem b →
      Shadows first n (fun _ => 0) Enclosed.bare
        (do
          let found ← Parser.commaListFrom a startsElement (Grammar.enclosedItem rules)
          pure (.values found.1 found.2))
        (do
          let found ← Parser.commaListFrom b startsElement (Grammar.enclosedItem rules')
          pure (.values found.1 found.2)) := by
    refine fun hab => (commaListFrom hab (enclosedItem h).forget).bind fun found found' hfound => ?_
    obtain ⟨hitems, htrailing⟩ := Prod.mk.inj hfound
    refine .pure ?_ rfl
    rw [Enclosed.bare, Enclosed.bare, hitems, htrailing]
  refine peek fun kind _ => ?_
  split
  · exact .pure rfl rfl
  · exact (yieldValue h).forget.bind fun _ _ hab => .pure (congrArg BareEnclosed.yielded hab) rfl
  · exact take.bind fun _ _ _ => h.operation.forget.discard.bind fun _ _ _ => .pure rfl rfl
  · refine lookAt star ?_ ?_
    · exact (enclosedItem h).forget.bind fun a b hab =>
        lookAny startsLoop (hvalues hab) (hvalues hab)
    · exact (enclosedItem h).forget.bind fun a b hab =>
        lookAny startsLoop ((comprehension h).bind fun _ _ _ => .pure rfl rfl) (hvalues hab)

theorem require_fail {α ε : Type} {least : α → Nat} {view : α → ε} {test : Kind → Bool}
    {cause : Cause} {offset : Nat} {q : Parser α} :
    Shadows first n least view (do Grammar.require test; fail cause offset) q := by
  refine never fun s a s' h => ?_
  obtain ⟨_, _, -, h⟩ := bind_eq_ok.mp h
  cases h

theorem tuple {items items' : List (Placed × Bool)}
    (h : items.map Placed.bareItem = items'.map Placed.bareItem) (span span' : Span) :
    (Expr.tuple span (items.map (·.1.expr))).bare =
      (Expr.tuple span' (items'.map (·.1.expr))).bare := by
  have hmap : ∀ items : List (Placed × Bool), (items.map (·.1.expr)).map Expr.bare =
      (items.map Placed.bareItem).map Prod.fst := fun items => by
    rw [List.map_map, List.map_map]
    rfl
  rw [Expr.bare, Expr.bare, Expr.bareAll_eq_map, Expr.bareAll_eq_map, hmap, hmap, h]

/-- Values in brackets are a tuple, unless there is one without a comma. -/
theorem ofEnclosed_values {start : Nat} {items : List (Placed × Bool)} {trailing : Bool}
    (h : ¬ (items.length = 1 ∧ trailing = false)) :
    Grammar.ofEnclosed start (.values items trailing) =
      Grammar.placedFrom start (.tuple · (items.map (·.1.expr))) := by
  rcases items with _ | ⟨item, _ | ⟨item', rest⟩⟩
  · rfl
  · cases trailing with
    | false => exact absurd ⟨rfl, rfl⟩ h
    | true => rfl
  · rfl

/-- A value in brackets is that value, but it must not be starred. -/
theorem ofEnclosed_value {start start' : Nat} {item item' : Placed × Bool}
    (h : item.1.bare = item'.1.bare) :
    Shadows first n (fun _ => 0) Placed.bare (ofEnclosed start (.values [item] false))
      (ofEnclosed start' (.values [item'] false)) := by
  rw [Grammar.ofEnclosed, Grammar.ofEnclosed]
  split
  · exact require_fail
  · next hstarred =>
    split
    · next span value hitem' =>
      rw [Placed.bare, Placed.bare, hitem'] at h
      cases hitem : item.1.expr with
      | starred span value => exact (hstarred span value hitem).elim
      | _ =>
        rw [hitem] at h
        cases h
    · exact placedFrom fun _ _ => h

theorem ofEnclosed {start start' : Nat} {content content' : Enclosed}
    (h : content.bare = content'.bare) :
    Shadows first n (fun _ => 0) Placed.bare (ofEnclosed start content)
      (ofEnclosed start' content') := by
  cases content with
  | nothing =>
    cases content' with
    | nothing =>
      rw [Grammar.ofEnclosed, Grammar.ofEnclosed]
      exact placedFrom fun _ _ => rfl
    | _ => cases h
  | yielded value =>
    cases content' with
    | yielded value' => exact placedFrom fun _ _ => BareEnclosed.yielded.inj h
    | _ => cases h
  | doubleStarred stars => exact require_fail
  | generated =>
    cases content' with
    | generated =>
      rw [Grammar.ofEnclosed, Grammar.ofEnclosed]
      exact placedFrom fun _ _ => rfl
    | _ => cases h
  | values items trailing =>
    cases content' with
    | values items' trailing' =>
      obtain ⟨hitems, rfl⟩ := BareEnclosed.values.inj h
      have hlength : items.length = items'.length := by
        rw [← List.length_map Placed.bareItem, hitems, List.length_map]
      by_cases hone : items.length = 1 ∧ trailing = false
      · obtain ⟨hone, rfl⟩ := hone
        obtain ⟨item, rfl⟩ := List.length_eq_one_iff.mp hone
        obtain ⟨item', rfl⟩ := List.length_eq_one_iff.mp (hlength.symm.trans hone)
        exact ofEnclosed_value (Prod.mk.inj (List.cons.inj hitems).1).1
      · rw [ofEnclosed_values hone, ofEnclosed_values (hlength ▸ hone)]
        exact placedFrom (tuple hitems)
    | _ => cases h

theorem parenthesized (h : rules.Shadow n rules') :
    Shadows first (n + 1) (fun _ => 1) Placed.bare (parenthesized rules)
      (parenthesized rules') := by
  refine (expect (opening .round) (Nat.le_refl 1)).behind fun _ _ _ => ?_
  refine (enclosed h).bind fun content content' hcontent => ?_
  exact expected.bind fun _ _ _ => ofEnclosed hcontent

theorem list {items items' : List Placed} (h : items.map Placed.bare = items'.map Placed.bare)
    (span span' : Span) :
    (Expr.list span (items.map (·.expr))).bare = (Expr.list span' (items'.map (·.expr))).bare := by
  rw [Expr.bare, Expr.bare, Expr.bareAll_eq_map, Expr.bareAll_eq_map, List.map_map, List.map_map]
  exact congrArg _ h

theorem listDisplay (h : rules.Shadow n rules') :
    Shadows first (n + 1) (fun _ => 1) Placed.bare (listDisplay rules) (listDisplay rules') := by
  refine (expect (opening .square) (Nat.le_refl 1)).behind fun _ _ _ => ?_
  refine ifAccept (take.bind fun _ _ _ => placedFrom fun _ _ => rfl) ?_
  refine (starNamed h).forget.bind fun a b hab => ?_
  refine ifAny startsLoop ?_ ?_
  · refine (comprehension h).bind fun _ _ _ => ?_
    exact expected.bind fun _ _ _ => placedFrom fun _ _ => rfl
  · refine (commaListFrom hab (starNamed h).forget).bind fun found found' hfound => ?_
    exact expected.bind fun _ _ _ => placedFrom (list (Prod.mk.inj hfound).1)

theorem dictEntry (h : rules.Shadow n rules') :
    Shadows first n (fun _ => 0) blind (dictEntry rules) (dictEntry rules') := by
  refine ifAccept (take.bind fun _ _ _ => h.operation.forget.discard) ?_
  refine h.test.forget.anything.discard.bind fun _ _ _ => ?_
  exact expected.bind fun _ _ _ => h.test.forget.discard

theorem dictRest (h : rules.Shadow n rules') {start start' : Nat} :
    Shadows first n (fun _ => 0) Placed.bare (dictRest rules start) (dictRest rules' start') := by
  refine (commaListFrom rfl (dictEntry h)).discard.bind fun _ _ _ => ?_
  exact expected.bind fun _ _ _ => placedFrom fun _ _ => rfl

theorem setRest (h : rules.Shadow n rules') {start start' : Nat} {a b : Placed}
    (hab : a.bare = b.bare) :
    Shadows first n (fun _ => 0) Placed.bare (setRest rules start a) (setRest rules' start' b) := by
  refine (commaListFrom hab (starNamed h).forget).discard.bind fun _ _ _ => ?_
  exact expected.bind fun _ _ _ => placedFrom fun _ _ => rfl

theorem curlyComprehension (h : rules.Shadow n rules') {start start' : Nat} {form : Expr.Form} :
    Shadows first n (fun _ => 0) Placed.bare (curlyComprehension rules start form)
      (curlyComprehension rules' start' form) := by
  refine (comprehension h).bind fun _ _ _ => ?_
  exact expected.bind fun _ _ _ => placedFrom fun _ _ => rfl

theorem curlyDisplay (h : rules.Shadow n rules') :
    Shadows first (n + 1) (fun _ => 1) Placed.bare (curlyDisplay rules) (curlyDisplay rules') := by
  refine (expect (opening .curly) (Nat.le_refl 1)).behind fun _ _ _ => ?_
  refine ifAccept (take.bind fun _ _ _ => placedFrom fun _ _ => rfl) ?_
  refine ifAccept (take.bind fun _ _ _ =>
    h.operation.forget.discard.bind fun _ _ _ => dictRest h) ?_
  refine ifAt star ((starred h.operation.forget).forget.bind fun _ _ hab => setRest h hab) ?_
  refine second fun kind => (namedTest h).forget.bind fun a b hab => ?_
  have hset : ∀ (first : Option Kind → Prop) (start start' : Nat),
      Shadows first n (fun _ => 0) Placed.bare
        (do
          if ← atAny? startsLoop then
            Grammar.curlyComprehension rules start .setComprehension
          else Grammar.setRest rules start a)
        (do
          if ← atAny? startsLoop then
            Grammar.curlyComprehension rules' start' .setComprehension
          else Grammar.setRest rules' start' b) :=
    fun first start start' => ifAny startsLoop (curlyComprehension h) (setRest h hab)
  refine lookAt colon (.ite (fun _ => ?_) fun _ => hset _ _ _)
    (.ite (fun hcolon => ?_) fun _ => hset _ _ _)
  · refine take.discard.bind fun _ _ _ => h.test.forget.discard.bind fun _ _ _ => ?_
    exact ifAny startsLoop (curlyComprehension h) (dictRest h)
  · rw [Bool.and_false] at hcolon
    exact absurd hcolon Bool.false_ne_true

/-! ### Calls, subscripts and members -/

theorem argument (h : rules.Shadow n rules') :
    Shadows first n (fun _ => 1) Argument.bare (argument rules) (argument rules') := by
  refine nextStart.bind fun _ _ _ => peek fun kind _ => second fun kind' => ?_
  split
  · exact (take_lead nofun nofun).discard.lead fun _ _ _ =>
      h.test.forget.discard.bind fun _ _ _ => .pure rfl rfl
  · exact (take_lead nofun nofun).discard.lead fun _ _ _ =>
      h.test.forget.discard.bind fun _ _ _ => .pure rfl rfl
  · exact (take_lead nofun nofun).discard.lead fun _ _ _ => take.discard.bind fun _ _ _ =>
      h.test.forget.discard.bind fun _ _ _ => .pure rfl rfl
  · refine (namedTest h).lead fun _ _ _ => ifAny startsLoop ?_ (.pure rfl rfl)
    exact (comprehension h).bind fun _ _ _ => .pure rfl rfl

theorem arguments (h : rules.Shadow n rules') :
    Shadows first (n + 1) (fun _ => 1) blind (arguments rules) (arguments rules') := by
  refine (expect (opening .round) (Nat.le_refl 1)).discard.behind fun _ _ _ => ?_
  refine lookAt _ expected (.ite (fun _ => ?_) fun h => absurd rfl h)
  refine (commaList (argument h) (argument h).forget).forget.bind fun found found' hfound => ?_
  obtain ⟨items, trailing⟩ := found
  obtain ⟨items', trailing'⟩ := found'
  have hitems : items.map Argument.bare = items'.map Argument.bare := (Prod.mk.inj hfound).1
  refine (require _).bind fun _ _ _ => (Shadows.check fun _ _ hcheck => ?_).bind
    fun _ _ _ => expected
  rw [Argument.check, ← Argument.checkFrom_bare, ← hitems, Argument.checkFrom_bare]
  exact hcheck

theorem bound (h : rules.Shadow n rules') :
    Shadows first n (fun _ => 0) blind (bound rules) (bound rules') :=
  ifAny startsTest h.test.anything.forget.discard (.pure rfl rfl)

theorem sliceRest (h : rules.Shadow n rules') :
    Shadows first n (fun _ => 1) blind (sliceRest rules) (sliceRest rules') := by
  refine (expect colon (Nat.le_refl 1)).discard.lead fun _ _ _ => (bound h).bind fun _ _ _ => ?_
  exact ifAccept (take.bind fun _ _ _ => bound h) (.pure rfl rfl)

theorem subscriptItem (h : rules.Shadow n rules') :
    Shadows first n (fun _ => 1) blind (subscriptItem rules) (subscriptItem rules') := by
  have hrest : ∀ (first : Option Kind → Prop) (isPlain : Bool), Shadows first n (fun _ => 1) blind
      (do
        discard (Grammar.starNamed rules)
        if isPlain && (← at? colon) then Grammar.sliceRest rules)
      (do
        discard (Grammar.starNamed rules')
        if isPlain && (← at? colon) then Grammar.sliceRest rules') := by
    refine fun first isPlain => (starNamed h).discard.lead fun _ _ _ => lookAt colon ?_ ?_
    · exact .ite (fun _ => (sliceRest h).forget) fun _ => .pure rfl rfl
    · exact .ite (fun _ => (sliceRest h).forget) fun _ => .pure rfl rfl
  exact ifAt colon (sliceRest h) (lookAt star (second fun kind => hrest _ (!true && _))
    (second fun kind => hrest _ (!false && _)))

theorem subscripts (h : rules.Shadow n rules') :
    Shadows first (n + 1) (fun _ => 1) blind (subscripts rules) (subscripts rules') := by
  refine (expect (opening .square) (Nat.le_refl 1)).discard.behind fun _ _ _ => ?_
  refine (commaList (subscriptItem h) (subscriptItem h).forget).forget.discard.bind fun _ _ _ => ?_
  exact expected

theorem trailers (h : rules.Shadow n rules') {value value' : Placed}
    (hvalue : value.bare = value'.bare) :
    Shadows first (n + 1) (fun _ => 0) Placed.bare (trailers rules value)
      (trailers rules' value') := by
  have hmore : ∀ (start start' : Nat) (make : Span → Expr),
      (∀ span span', (make span).bare = (make span').bare) →
        Shadows Anything (n + 1) (fun _ => 0) (fun x : Placed × Bool => (x.1.bare, x.2))
          (do pure (← Grammar.placedFrom start make, true))
          (do pure (← Grammar.placedFrom start' make, true)) :=
    fun start start' make hmake => (placedFrom hmake).bind fun _ _ hab =>
      .pure (congrArg (·, true) hab) rfl
  refine iterate Placed.bare hvalue fun value value' hvalue => peek fun kind _ => ?_
  split
  · refine Shadows.weaken ((arguments h).lead fun _ _ _ => ?_) fun x => Bool.toNat_le x.2
    exact hmore _ _ _ fun _ _ => rfl
  · refine Shadows.weaken ((subscripts h).lead fun _ _ _ => ?_) fun x => Bool.toNat_le x.2
    exact hmore _ _ _ fun _ _ => rfl
  · refine Shadows.weaken ((take_lead nofun nofun).discard.lead fun _ _ _ => ?_)
      fun x => Bool.toNat_le x.2
    exact name.forget.discard.bind fun _ _ _ => hmore _ _ _ fun _ _ => rfl
  · exact done hvalue

/-! ### Operators -/

/-- One of the literals that are one value, and its place. -/
def literal : Parser (StringLiteral × Nat) := do
  let token ← Parser.take
  match token.kind with
  | .string literal => pure (literal, token.start)
  | _ => Parser.unexpected

theorem literal_shadows :
    Shadows (fun kind => kind.any (fun kind => kind matches .string _) = true) n (fun _ => 1)
      Prod.fst literal literal := by
  refine (take_lead nofun nofun).lead fun token token' hkind => ?_
  rw [hkind]
  split
  · exact .pure rfl rfl
  · exact unexpected

theorem letters_of_isFormat {form : StringForm} (h : form.isFormat = true) :
    1 ≤ form.letters.length := by
  cases form with
  | format => decide
  | rawFormat => decide
  | _ => cases h

/-- A literal weighs no more than what is left. -/
theorem weight_of_literal {bound : Nat} {s s' : State} {found : StringLiteral × Nat}
    (hs : s.load < bound) (h : literal s = .ok (found, s')) :
    (Kind.string found.1).weight < bound ∧ s'.load < bound := by
  obtain ⟨token, s₁, htoken, h⟩ := bind_eq_ok.mp h
  obtain ⟨hhead, rfl⟩ := take_eq_ok.mp htoken
  have hload := State.load_skip hhead
  cases hkind : token.kind with
  | string value =>
    rw [hkind] at h hload
    cases h
    dsimp only
    exact ⟨by omega, by omega⟩
  | _ =>
    rw [hkind] at h
    exact absurd h unexpected_ne_ok

theorem strings [CharacterNames] (h : rules.Shadow n rules') {follows : Kind → Bool}
    {literal : StringLiteral} :
    Shadows (· = some (.string literal)) (n + 1) (fun _ => 1) Placed.bare
      (strings rules.embedded follows) (strings rules'.embedded follows) := by
  refine nextStart.bind_still (fun _ _ _ => nextStart_still) fun start start' _ => ?_
  have hliterals : Shadows (· = some (.string literal)) (n + 1) (fun _ => 1) (List.map Prod.fst)
      (Parser.manyWhile (fun kind => kind matches .string _) Shadows.literal)
      (Parser.manyWhile (fun kind => kind matches .string _) Shadows.literal) := by
    refine manyWhile_lead literal_shadows ?_
    rintro _ rfl
    rfl
  refine hliterals.seq_knowing (fun literals => ∀ literal ∈ literals,
    (Kind.string literal.1).weight ≤ n) (fun t found t' ht hfound => ?_)
    fun literals literals' m hsame hm hknown => ?_
  · exact mem_manyWhile (fun s => s.load < n + 1) (fun s a s' hs ha =>
      (weight_of_literal hs ha).imp_left Nat.le_of_lt_succ) ht hfound
  · refine lastStop.bind fun _ _ _ => (require follows).bind fun _ _ _ => ?_
    refine (Shadows.check fun hpos form hread => ?_).bind fun form form' hform => ?_
    · refine Literal.readAll_eq_ok hsame (fun literal hliteral hformat text hlength => ?_) hread
      rw [hsame] at hliteral
      obtain ⟨found, hfound, rfl⟩ := List.mem_map.mp hliteral
      -- The letter that makes it a format string and the quotes are not in the content.
      have hweight := hknown hpos found hfound
      have hletters := letters_of_isFormat hformat
      rw [Kind.weight] at hweight
      exact h.embedded text (by omega)
    · obtain rfl : form = form' := hform
      exact .pure rfl rfl

theorem lone {form : Expr.Form} (hindent : ¬ first (some .indent))
    (hdedent : ¬ first (some .dedent)) :
    Shadows first n (fun _ => 1) Placed.bare (lone form) (lone form) :=
  (take_lead hindent hdedent).lead fun _ _ _ => placedFrom fun _ _ => rfl

theorem atom [CharacterNames] (h : rules.Shadow n rules') :
    Shadows first (n + 1) (fun _ => 1) Placed.bare (atom rules) (atom rules') := by
  refine peek fun kind _ => ?_
  split
  · exact (take_lead nofun nofun).lead fun _ _ _ => placedFrom fun _ _ => rfl
  · exact strings h
  · exact lone nofun nofun
  · exact lone nofun nofun
  · exact lone nofun nofun
  · exact lone nofun nofun
  · exact lone nofun nofun
  · exact lone nofun nofun
  · exact lone nofun nofun
  · exact parenthesized h
  · exact listDisplay h
  · exact curlyDisplay h
  · exact unexpected

theorem primary [CharacterNames] (h : rules.Shadow n rules') :
    Shadows first (n + 1) (fun _ => 1) Placed.bare (primary rules) (primary rules') := by
  refine nextStart.bind fun _ _ _ => ifAccept ?_ ?_
  · refine (take_lead nofun nofun).lead fun _ _ _ => (atom h).forget.bind fun _ _ hab => ?_
    exact (trailers h hab).discard.bind fun _ _ _ => placedFrom fun _ _ => rfl
  · exact (atom h).lead fun _ _ hab => trailers h hab

theorem operand [CharacterNames] (h : rules.Shadow n rules') :
    Shadows first (n + 1) (fun _ => 1) Placed.bare (operand rules) (operand rules') := by
  refine nextStart.bind fun _ _ _ => ?_
  refine (manyWhile (take_lead (by decide) (by decide))).bind fun signs signs' hsigns => ?_
  refine (primary h).lead fun value value' hvalue => ?_
  rw [isEmpty_of_map hsigns]
  exact .ite (fun _ => .pure hvalue rfl) fun _ => placedFrom fun _ _ => rfl

theorem operationRest [CharacterNames] (h : rules.Shadow n rules') {a b : Placed}
    (hab : a.bare = b.bare) :
    Shadows first (n + 1) (fun _ => 0) Placed.bare (operationRest rules a)
      (operationRest rules' b) := by
  have hnext : Shadows (fun kind => kind.any isOperator = true) (n + 1) (fun _ => 1) Placed.bare
      (do discard Parser.take; Grammar.operand rules)
      (do discard Parser.take; Grammar.operand rules') :=
    (take_lead nofun nofun).discard.lead fun _ _ _ => (operand h).forget
  refine ifAny isOperator ?_ (.pure hab rfl)
  exact (manyWhile hnext).discard.bind fun _ _ _ => placedFrom fun _ _ => rfl

theorem operation [CharacterNames] (h : rules.Shadow n rules') :
    Shadows first (n + 1) (fun _ => 1) Placed.bare (operation rules) (operation rules') :=
  (operand h).lead fun _ _ hab => operationRest h hab

theorem comparisonSign :
    Shadows (fun kind => kind.any isComparison = true) n (fun _ => 1) blind comparisonSign
      comparisonSign := by
  refine (take_lead nofun nofun).lead fun token token' hkind => ?_
  rw [hkind]
  split
  · exact expected
  · exact accept.discard
  · exact .pure rfl rfl

theorem comparisonRest [CharacterNames] (h : rules.Shadow n rules') {a b : Placed}
    (hab : a.bare = b.bare) :
    Shadows first (n + 1) (fun _ => 0) Placed.bare (comparisonRest rules a)
      (comparisonRest rules' b) := by
  refine ifAny isComparison ?_ (.pure hab rfl)
  exact (manyWhile (comparisonSign.lead fun _ _ _ => (operation h).forget)).discard.bind
    fun _ _ _ => placedFrom fun _ _ => rfl

theorem negation [CharacterNames] (h : rules.Shadow n rules') :
    Shadows first (n + 1) (fun _ => 1) Placed.bare (negation rules) (negation rules') := by
  refine nextStart.bind fun _ _ _ => ?_
  refine (manyWhile (take_lead (by decide) (by decide))).bind fun signs signs' hsigns => ?_
  refine (operation h).lead fun value value' hvalue =>
    (comparisonRest h hvalue).bind fun value value' hvalue => ?_
  rw [isEmpty_of_map hsigns]
  exact .ite (fun _ => .pure hvalue rfl) fun _ => placedFrom fun _ _ => rfl

theorem disjunctionRest [CharacterNames] (h : rules.Shadow n rules') {a b : Placed}
    (hab : a.bare = b.bare) :
    Shadows first (n + 1) (fun _ => 0) Placed.bare (disjunctionRest rules a)
      (disjunctionRest rules' b) := by
  have hnext : Shadows (fun kind => kind.any isJunction = true) (n + 1) (fun _ => 1) Placed.bare
      (do discard Parser.take; Grammar.negation rules)
      (do discard Parser.take; Grammar.negation rules') :=
    (take_lead nofun nofun).discard.lead fun _ _ _ => (negation h).forget
  refine ifAny isJunction ?_ (.pure hab rfl)
  exact (manyWhile hnext).discard.bind fun _ _ _ => placedFrom fun _ _ => rfl

theorem disjunction [CharacterNames] (h : rules.Shadow n rules') :
    Shadows first (n + 1) (fun _ => 1) Placed.bare (disjunction rules) (disjunction rules') :=
  (negation h).lead fun _ _ hab => disjunctionRest h hab

theorem conditionalRest (h : rules.Shadow n rules') {a b : Placed} (hab : a.bare = b.bare) :
    Shadows first (n + 1) (fun _ => 0) Placed.bare (conditionalRest rules a)
      (conditionalRest rules' b) := by
  refine ifAccept (Shadows.forget (take_lead nofun nofun |>.behind fun _ _ _ => ?_)) (.pure hab rfl)
  refine h.disjunction.forget.discard.bind fun _ _ _ => ?_
  refine expected.bind fun _ _ _ => ?_
  exact h.test.forget.discard.bind fun _ _ _ => placedFrom fun _ _ => rfl

/-! ### Parameters -/

theorem annotationOf {item item' : Parser Placed}
    (h : Shadows Anything n (fun _ => 0) Placed.bare item item') :
    Shadows first n (fun _ => 0) blind ( annotation item) ( annotation item') :=
  ifAccept (take.bind fun _ _ _ => h.discard) (.pure rfl rfl)

theorem parameter (h : rules.Shadow n rules') (annotated : Bool) :
    Shadows first n (fun _ => 1) Parameter.bare (parameter rules annotated)
      (parameter rules' annotated) := by
  have hrest : ∀ (first : Option Kind → Prop) (id : String) (start start' : Nat),
      Shadows first n (fun _ => 0) Parameter.bare
        (do
          let hasDefault ← accept? assignSign
          if hasDefault then discard rules.test
          pure ⟨id, start, hasDefault⟩)
        (do
          let hasDefault ← accept? assignSign
          if hasDefault then discard rules'.test
          pure ⟨id, start', hasDefault⟩) := by
    refine fun first id start start' => accept.bind fun hasDefault _ hsame => ?_
    obtain rfl := hsame
    exact .ite (fun _ => h.test.forget.discard.bind fun _ _ _ => .pure rfl rfl)
      fun _ => .pure rfl rfl
  refine name.lead fun found found' hfound => ?_
  obtain ⟨token, id⟩ := found
  obtain ⟨token', id'⟩ := found'
  obtain rfl : id = id' := hfound
  dsimp only
  exact .ite (fun _ => (annotationOf h.test.forget).bind fun _ _ _ => hrest _ _ _ _)
    fun _ => hrest _ _ _ _

theorem starParameter (h : rules.Shadow n rules') (annotated mayStar : Bool) :
    Shadows first n (fun _ => 0) (Option.map Parameter.bare)
      (starParameter rules annotated mayStar) (starParameter rules' annotated mayStar) := by
  refine peek fun kind _ => ?_
  split
  · refine take.bind fun _ _ _ => .ite (fun _ => ?_) fun _ => .pure rfl rfl
    cases mayStar with
    | true => exact (annotationOf (testOrStar h).forget).bind fun _ _ _ => .pure rfl rfl
    | false => exact (annotationOf h.test.forget).bind fun _ _ _ => .pure rfl rfl
  · exact .pure rfl rfl

theorem parameterItem (h : rules.Shadow n rules') (annotated : Bool) {params params' : Parameters}
    (hparams : params.bare = params'.bare) :
    Shadows first n (fun _ => 1) Parameters.bare (parameterItem rules annotated params)
      (parameterItem rules' annotated params') := by
  obtain ⟨positionalOnly, ordinary, star, starParam, keywordOnly, doubleStar, doubleParam⟩ := params
  obtain ⟨positionalOnly', ordinary', star', starParam', keywordOnly', doubleStar', doubleParam'⟩ :=
    params'
  obtain ⟨hpositional, hordinary, hstar, hstarParam, hkeyword, hdouble, hdoubleParam⟩ :=
    Parameters.mk.inj hparams
  dsimp only at hpositional hordinary hstar hstarParam hkeyword hdouble hdoubleParam
  obtain rfl := hdouble
  have hsome : star.isSome = star'.isSome := by
    rw [← Option.isSome_map (f := fun _ => 0), hstar, Option.isSome_map]
  refine nextStart.bind fun _ _ _ => peek fun kind _ => ?_
  rw [hsome, isEmpty_of_map hordinary, isEmpty_of_map hpositional]
  split
  · refine .ite (fun _ => unexpected) fun _ => (parameter h annotated).lead
      fun param param' hparam => .ite (fun _ => .pure ?_ rfl) fun _ => .pure ?_ rfl
    · simp only [Parameters.bare, List.map_append, List.map_singleton, *]
    · simp only [Parameters.bare, List.map_append, List.map_singleton, *]
  · refine .ite (fun _ => unexpected) fun _ =>
      (take_lead (by decide) (by decide)).discard.lead fun _ _ _ =>
      .pure ?_ rfl
    simp only [Parameters.bare, List.map_nil, *]
  · refine .ite (fun _ => unexpected) fun _ =>
      (take_lead (by decide) (by decide)).discard.lead fun _ _ _ =>
      (starParameter h annotated true).bind fun param param' hparam => .pure ?_ rfl
    simp only [Parameters.bare, Option.map_some, *]
  · refine .ite (fun _ => unexpected) fun _ =>
      (take_lead (by decide) (by decide)).discard.lead fun _ _ _ =>
      (starParameter h annotated false).bind fun param param' hparam => .pure ?_ rfl
    simp only [Parameters.bare, *]
  · exact unexpected

theorem parameters (h : rules.Shadow n rules') (annotated : Bool) (close : Kind) :
    Shadows first n (fun _ => 0) Parameters.bare (parameters rules annotated close)
      (parameters rules' annotated close) := by
  refine ifAt close (.pure rfl rfl) ((parameterItem h annotated rfl).forget.bind
    fun start start' hstart => ?_)
  refine (iterate Parameters.bare hstart fun params params' hparams => ?_).bind
    fun params params' hparams => (require _).bind fun _ _ _ =>
      (Shadows.check fun _ _ hcheck => ?_).bind fun _ _ _ => .pure hparams rfl
  · refine ifAccept ?_ (done hparams)
    refine Shadows.weaken ((take_lead nofun nofun).lead fun _ _ _ => ?_) fun x => Bool.toNat_le x.2
    refine ifAt close (.pure ?_ rfl) ((parameterItem h annotated hparams).forget.bind
      fun params params' hparams => .pure ?_ rfl)
    · rw [hparams]
    · rw [hparams]
  · rw [← Parameters.checkOrder_bare, ← hparams, Parameters.checkOrder_bare]
    exact hcheck

theorem lambda (h : rules.Shadow n rules') :
    Shadows first (n + 1) (fun _ => 1) Placed.bare (lambda rules) (lambda rules') := by
  refine (expect (.keyword .lambda_) (Nat.le_refl 1)).behind fun _ _ _ =>
    (parameters h false colon).bind fun params params' hparams => ?_
  refine expected.bind fun _ _ _ => h.test.forget.discard.bind fun _ _ _ => ?_
  refine Shadows.bind (placedFrom ?_) fun value value' hvalue => (require _).bind fun _ _ _ =>
    (Shadows.check fun _ _ hcheck => ?_).bind fun _ _ _ => .pure hvalue rfl
  · exact fun _ _ => rfl
  rw [← Parameters.checkNames_bare, ← hparams, Parameters.checkNames_bare]
  exact hcheck

theorem test [CharacterNames] (h : rules.Shadow n rules') :
    Shadows first (n + 1) (fun _ => 1) Placed.bare (test rules) (test rules') :=
  ifAt _ (lambda h) ((disjunction h).lead fun _ _ hab => conditionalRest h hab)

/-! ### Expressions in format strings -/

theorem loneTestList (h : rules.Shadow n rules') :
    Shadows first n (fun _ => 0) blind (loneTestList rules) (loneTestList rules') := by
  refine (testList h).forget.discard.bind fun _ _ _ => ?_
  refine Shadows.bind (manyWhile (take_lead (by decide) (by decide))).discard fun _ _ _ => ?_
  refine peekToken.bind fun found found' hfound => ?_
  rw [← Option.isSome_map (f := Token.kind), hfound, Option.isSome_map]
  exact .ite (fun _ => unexpected) fun _ => .pure rfl rfl

theorem embedded (h : rules.Shadow n rules') {text : List Char} (hn : text.length + 3 < n)
    (hread : embedded rules text = .ok ()) : Grammar.embedded rules' text = .ok () := by
  -- The text is read in brackets of its own.
  have hload := TokenStream.weightAll_ofText_le ('(' :: text ++ [')'])
  rw [← TokenStream.weightAll_settleAsNames] at hload
  simp only [List.cons_append, List.length_cons, List.length_append, List.length_nil] at hload
  delta Grammar.embedded at hread ⊢
  dsimp only at hread ⊢
  split at hread
  · next answer hanswer =>
    have hrounds : ∀ stream : TokenStream, (State.ofStream stream).HasRounds :=
      fun stream => Nat.lt_succ_self _
    have hshadows : Shadows Anything n _ _ _ _ := loneTestList h
    obtain ⟨c, -, -, hrest⟩ := hshadows trivial (hrounds _) hanswer
    obtain ⟨_, _, hanswer', -⟩ := hrest (hrounds _) (Nat.lt_of_le_of_lt hload hn)
      ⟨fun _ _ => rfl, fun offset hoffset => ⟨offset, hoffset⟩⟩
    dsimp only [StateT.run]
    rw [hanswer']
  · cases hread

end Shadows

/-! ### Levels -/

namespace Rules

variable {n m : Nat} {rules rules' : Rules}

theorem Shadow.next [CharacterNames] (h : rules.Shadow n rules') :
    rules.next.Shadow (n + 1) rules'.next where
  test := .test h
  disjunction := .disjunction h
  operation := .operation h
  embedded _ hlength hread := Shadows.embedded h (Nat.lt_of_succ_lt_succ hlength) hread

theorem Shadow.none : none.Shadow n rules' where
  test := .unexpected
  disjunction := .unexpected
  operation := .unexpected
  embedded _ _ hread := nomatch hread

/-- Where nothing is left, there is nothing to answer. -/
theorem Shadow.of_zero {rules'' : Rules} (h : rules.Shadow 0 rules') : rules.Shadow 0 rules'' where
  test := h.test.of_zero
  disjunction := h.disjunction.of_zero
  operation := h.operation.of_zero
  embedded _ hlength := absurd hlength (Nat.not_lt_zero _)

theorem Shadow.of_le (h : rules.Shadow n rules') (hle : m ≤ n) : rules.Shadow m rules' where
  test := h.test.of_le hle
  disjunction := h.disjunction.of_le hle
  operation := h.operation.of_le hle
  embedded text hlength := h.embedded text (Nat.lt_of_lt_of_le hlength hle)

/-- **As many levels are enough as there are tokens.** What is read with any number of levels is
read with a given number of levels, too, if less than that is left. -/
theorem level_shadow [CharacterNames] (depth depth' : Nat) {n : Nat} (hn : n ≤ depth') :
    (level depth).Shadow n (level depth') := by
  induction depth generalizing n depth' with
  | zero => exact .none
  | succ depth ih =>
    cases n with
    | zero =>
      -- Nothing has to be answered, so it does not matter which rules would.
      exact ((ih 0 (Nat.le_refl 0)).next.of_le (Nat.zero_le 1)).of_zero
    | succ n =>
      obtain ⟨depth', rfl⟩ := Nat.exists_eq_succ_of_ne_zero (Nat.ne_zero_of_lt hn)
      exact (ih depth' (Nat.le_of_succ_le_succ hn)).next

end Rules

end SourceOutline.Grammar
