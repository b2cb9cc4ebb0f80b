import SourceOutline.Proofs.Grammar.Shadows

/-!
# Tokens that a parser takes

A parser **reads** tokens of some kinds if it takes just these where they are followed by tokens of
some further kinds, and ends with a good value (`Reads`). There is one law for each way to put
parsers together, so what a rule of the grammar reads is told step by step along the rule. What
follows is part of the statement, as a rule looks at it to know where it ends.
-/

namespace SourceOutline.Grammar

open Token (Kind)
open Grammar.Parser

/-- What the tokens are. -/
def State.kinds (s : State) : List Kind :=
  s.tokens.map (·.kind)

/-- In front of tokens of these kinds, which are all that is left of a text that can be read to its
end. -/
structure State.StandsBefore (s : State) (kinds : List Kind) : Prop where
  kinds : s.kinds = kinds
  ending : ∃ offset, s.ending = .text offset
  hasRounds : s.HasRounds

variable {α β : Type}

/-- In front of tokens of the kinds `kinds` and `rest`, the parser takes the former and answers with
a good value. -/
def Reads (kinds rest : List Kind) (Good : α → Prop) (p : Parser α) : Prop :=
  ∀ ⦃s : State⦄, s.StandsBefore (kinds ++ rest) →
    ∃ a s', p s = .ok (a, s') ∧ Good a ∧ s'.StandsBefore rest

namespace Reads

variable {kinds kinds' rest : List Kind} {kind : Kind} {Good : α → Prop} {Good' : β → Prop}
  {p : Parser α}

theorem imp {Good₂ : α → Prop} (h : Reads kinds rest Good p) (hgood : ∀ a, Good a → Good₂ a) :
    Reads kinds rest Good₂ p := by
  intro s hs
  obtain ⟨a, s', hp, ha, hs'⟩ := h hs
  exact ⟨a, s', hp, hgood a ha, hs'⟩

protected theorem pure {a : α} (ha : Good a) : Reads [] rest Good (pure a) :=
  fun s hs => ⟨a, s, rfl, ha, hs⟩

theorem bind {f : α → Parser β} (hp : Reads kinds (kinds' ++ rest) Good p)
    (hf : ∀ a, Good a → Reads kinds' rest Good' (f a)) :
    Reads (kinds ++ kinds') rest Good' (p >>= f) := by
  intro s hs
  rw [List.append_assoc] at hs
  obtain ⟨a, s', hp, ha, hs'⟩ := hp hs
  obtain ⟨b, s'', hb, hgood, hs''⟩ := hf a ha hs'
  exact ⟨b, s'', bind_eq_ok.mpr ⟨a, s', hp, hb⟩, hgood, hs''⟩

/-- The first step takes nothing. -/
theorem still {f : α → Parser β} (hp : Reads [] (kinds ++ rest) Good p)
    (hf : ∀ a, Good a → Reads kinds rest Good' (f a)) : Reads kinds rest Good' (p >>= f) :=
  hp.bind hf

/-- The first step takes one token. -/
theorem step {f : α → Parser β} (hp : Reads [kind] (kinds ++ rest) Good p)
    (hf : ∀ a, Good a → Reads kinds rest Good' (f a)) :
    Reads (kind :: kinds) rest Good' (p >>= f) :=
  hp.bind hf

/-- The first step takes all there is. -/
theorem last {f : α → Parser β} (hp : Reads kinds rest Good p)
    (hf : ∀ a, Good a → Reads [] rest Good' (f a)) : Reads kinds rest Good' (p >>= f) := by
  rw [← List.append_nil kinds]
  exact bind hp hf

theorem peek {f : Option Kind → Parser α} (h : Reads kinds rest Good (f (kinds ++ rest).head?)) :
    Reads kinds rest Good (peek? >>= f) := by
  intro s hs
  obtain ⟨a, s', ha, hgood, hs'⟩ := h hs
  have hahead : (kinds ++ rest).head? = s.ahead 0 := by
    rw [← hs.kinds, State.kinds, State.ahead_zero, List.head?_map]
  rw [hahead] at ha
  exact ⟨a, s', bind_eq_ok.mpr ⟨_, s, peek?_eq_ok.mpr ⟨rfl, rfl, fun _ => hs.ending⟩, ha⟩, hgood,
    hs'⟩

theorem second {f : Option Kind → Parser α} (h : Reads kinds rest Good (f (kinds ++ rest)[1]?)) :
    Reads kinds rest Good (second? >>= f) := by
  intro s hs
  obtain ⟨a, s', ha, hgood, hs'⟩ := h hs
  have hahead : (kinds ++ rest)[1]? = s.tokens[1]?.map (·.kind) := by
    rw [← hs.kinds, State.kinds, List.getElem?_map]
  rw [hahead] at ha
  exact ⟨a, s', ha, hgood, hs'⟩

/-- The next token is looked at for a property. -/
theorem lookAny {test : Kind → Bool} {f : Bool → Parser α} (found : Bool)
    (hfound : (kinds ++ rest).head?.any test = found) (h : Reads kinds rest Good (f found)) :
    Reads kinds rest Good (atAny? test >>= f) := by
  simp only [atAny?, bind_assoc, pure_bind]
  refine peek ?_
  subst hfound
  cases hhead : (kinds ++ rest).head? with
  | none =>
    rw [hhead] at h
    exact h
  | some kind =>
    rw [hhead] at h
    exact h

theorem lookAt {f : Bool → Parser α} (found : Bool)
    (hfound : ((kinds ++ rest).head? == some kind) = found) (h : Reads kinds rest Good (f found)) :
    Reads kinds rest Good (at? kind >>= f) := by
  simp only [at?, bind_assoc, pure_bind]
  exact peek (hfound ▸ h)

theorem take : Reads [kind] rest (fun token => token.kind = kind) Parser.take := by
  intro s hs
  have hkinds := hs.kinds
  rw [State.kinds, List.singleton_append, List.map_eq_cons_iff] at hkinds
  obtain ⟨token, tokens, htokens, rfl, hrest⟩ := hkinds
  have hhead : s.tokens.head? = some token := by rw [htokens, List.head?_cons]
  refine ⟨token, s.skip token, take_eq_ok.mpr ⟨hhead, rfl⟩, rfl, ?_, hs.ending,
    (State.isBehind_skip hhead).hasRounds hs.hasRounds⟩
  rw [State.kinds, State.skip, htokens, List.tail_cons, hrest]

theorem expect : Reads [kind] rest (fun token => token.kind = kind) (Parser.expect kind) :=
  lookAt true (beq_self_eq_true _) take

theorem discard (h : Reads kinds rest Good p) :
    Reads kinds rest (fun _ => True) (Functor.discard p) := by
  have hdiscard : Functor.discard p = p >>= fun _ => pure PUnit.unit :=
    (bind_pure _).symm.trans (discard_bind p pure)
  rw [hdiscard]
  exact h.last fun _ _ => .pure trivial

/-- The next token is another one than asked for. -/
theorem refuse {f : Bool → Parser α} (hother : ((kinds ++ rest).head? == some kind) = false)
    (h : Reads kinds rest Good (f false)) : Reads kinds rest Good (accept? kind >>= f) := by
  rw [accept?, bind_assoc]
  refine lookAt false hother ?_
  simp only [Bool.false_eq_true, if_false, pure_bind]
  exact h

theorem refused (hother : (rest.head? == some kind) = false) :
    Reads [] rest (fun _ => True) (accept? kind) := by
  rw [← bind_pure (accept? kind)]
  exact refuse hother (.pure trivial)

theorem nextStart : Reads [] rest (fun _ => True) Parser.nextStart := by
  intro s hs
  have htoken := peekToken?_eq_ok.mpr ⟨rfl, rfl, fun _ => hs.ending⟩
  cases hhead : s.tokens.head? with
  | none =>
    rw [hhead] at htoken
    exact ⟨s.lastStop, s, bind_eq_ok.mpr ⟨none, s, htoken, rfl⟩, trivial, hs⟩
  | some token =>
    rw [hhead] at htoken
    exact ⟨token.start, s, bind_eq_ok.mpr ⟨some token, s, htoken, rfl⟩, trivial, hs⟩

theorem lastStop : Reads [] rest (fun _ => True) Parser.lastStop :=
  fun s hs => ⟨s.lastStop, s, rfl, trivial, hs⟩

/-! ### Loops -/

section

variable {step : α → Parser (α × Bool)} {a : α}

/-- A loop takes tokens, whatever the number of rounds is, as long as there are more of them than
tokens. -/
def Loop (kinds rest : List Kind) (Good : α → Prop) (step : α → Parser (α × Bool)) (a : α) : Prop :=
  ∀ ⦃s : State⦄ ⦃rounds : Nat⦄, s.StandsBefore (kinds ++ rest) → s.tokens.length < rounds →
    ∃ x s', loop step rounds a s = .ok (x, s') ∧ Good x ∧ s'.StandsBefore rest

theorem Loop.iterate (h : Loop kinds rest Good step a) :
    Reads kinds rest Good (iterate step a) :=
  fun _ hs => h hs hs.hasRounds

theorem Loop.done (h : Reads kinds rest (fun x => x.2 = false ∧ Good x.1) (step a)) :
    Loop kinds rest Good step a := by
  intro s rounds hs hrounds
  obtain ⟨rounds, rfl⟩ := Nat.exists_eq_succ_of_ne_zero (Nat.ne_zero_of_lt hrounds)
  obtain ⟨⟨x, more⟩, s', hx, ⟨rfl, hgood⟩, hs'⟩ := h hs
  exact ⟨x, s', bind_eq_ok.mpr ⟨_, s', hx, rfl⟩, hgood, hs'⟩

theorem Loop.again {Good' : α → Prop} (hkinds : kinds ≠ [])
    (h : Reads kinds (kinds' ++ rest) (fun x => x.2 = true ∧ Good' x.1) (step a))
    (hrest : ∀ b, Good' b → Loop kinds' rest Good step b) :
    Loop (kinds ++ kinds') rest Good step a := by
  intro s rounds hs hrounds
  obtain ⟨rounds, rfl⟩ := Nat.exists_eq_succ_of_ne_zero (Nat.ne_zero_of_lt hrounds)
  have hlength := congrArg List.length hs.kinds
  rw [List.append_assoc] at hs
  obtain ⟨⟨b, more⟩, s', hb, ⟨rfl, hgood⟩, hs'⟩ := h hs
  have hlength' := congrArg List.length hs'.kinds
  have hpos := List.length_pos_iff.mpr hkinds
  rw [State.kinds, List.length_map] at hlength hlength'
  simp only [List.length_append] at hlength hlength'
  have hlt : s'.tokens.length < rounds := by omega
  obtain ⟨x, s'', hx, hrest⟩ := hrest b hgood hs' hlt
  exact ⟨x, s'', bind_eq_ok.mpr ⟨_, s', hb, hx⟩, hrest⟩

/-- A loop that is done at once leaves its value as it is. -/
theorem iterate_none (h : Reads [] rest (· = (a, false)) (step a)) :
    Reads [] rest (· = a) (iterate step a) := by
  refine (Loop.done (h.imp fun x hx => ?_)).iterate
  subst hx
  exact ⟨rfl, rfl⟩

end

theorem manyWhile_nil {test : Kind → Bool} {item : Parser α}
    (hstop : rest.head?.any test = false) : Reads [] rest (· = []) (manyWhile test item) := by
  refine (iterate_none (lookAny false hstop ?_)).last fun items hitems => .pure ?_
  · exact .pure rfl
  · rw [hitems, List.reverse_nil]

/-- One item, behind which there is no other. -/
theorem manyWhile_one {test : Kind → Bool} {item : Parser α} (hkinds : kinds ≠ [])
    (hstart : (kinds ++ rest).head?.any test = true) (hstop : rest.head?.any test = false)
    (h : Reads kinds rest Good item) :
    Reads kinds rest (fun items => ∃ a, items = [a] ∧ Good a) (manyWhile test item) := by
  have hloop : Loop (kinds ++ []) rest (fun items => ∃ a, items = [a] ∧ Good a) (fun items => do
      if ← atAny? test then pure ((← item) :: items, true) else pure (items, false)) [] := by
    have hdone : ∀ items : List α, (∃ a, items = [a] ∧ Good a) →
        Loop [] rest (fun items => ∃ a, items = [a] ∧ Good a) (fun items => do
          if ← atAny? test then pure ((← item) :: items, true) else pure (items, false)) items :=
      fun items hitems => .done (lookAny false hstop (.pure ⟨rfl, hitems⟩))
    exact .again hkinds (lookAny true hstart (h.last fun a ha => .pure ⟨rfl, a, rfl, ha⟩)) hdone
  rw [List.append_nil] at hloop
  refine hloop.iterate.last fun items hitems => .pure ?_
  obtain ⟨a, rfl, ha⟩ := hitems
  exact ⟨a, rfl, ha⟩

end Reads

end SourceOutline.Grammar
