import SourceOutline.Grammar.Expression
import SourceOutline.Proofs.Token.Weight

/-!
# Parsers that answer alike

A parser decides by the tokens that it takes and by the two behind them, and by nothing else of its
state. To say so, two parsers are run side by side, from two states: `q` **shadows** `p`
(`Shadows`) if, wherever `p` answers, `q` answers alike from each state whose tokens are of the same
kinds for as long as `p` looks, and takes as many of them. The two states need not have anything
else in common, so where the tokens stand and what comes further behind does not matter. Answers
are alike if they look the same in a given `view`, for instance without the places in them.

Two numbers go along. Every token that is part of an expression has a **weight** of one at least
(`Token.Kind.weight`), and a literal weighs as much as the characters that it is written with. `q`
has to answer only where what is left weighs less than a bound, so that parsers for expressions of
limited depth can be compared; and `p` takes tokens of at least the weight `least`, which is why its
loops come to an end before their rounds are used up (`Shadows.iterate`).

There is one law here for each way in which parsers are put together.
-/

namespace SourceOutline

namespace Grammar

open Token (Kind)
open Grammar.Parser

/-! ### States -/

namespace State

/-- What the token at a distance is. -/
def ahead (s : State) (distance : Nat) : Option Kind :=
  s.tokens[distance]?.map (·.kind)

/-- What all tokens weigh. -/
def load (s : State) : Nat :=
  Token.weightAll s.tokens

/-- There are more rounds than tokens. -/
def HasRounds (s : State) : Prop :=
  s.tokens.length < s.rounds

/-- A number of tokens is taken between the states. -/
structure IsBehind (s s' : State) (count : Nat) : Prop where
  le : count ≤ s.tokens.length
  tokens : s'.tokens = s.tokens.drop count
  ending : s'.ending = s.ending
  rounds : s'.rounds = s.rounds

/-- The next tokens of the states are the same, up to a number of them. -/
structure Resembles (s t : State) (count : Nat) : Prop where
  ahead : ∀ distance < count, s.ahead distance = t.ahead distance
  /-- Where one can be read to its end, so can the other. -/
  ending : ∀ offset, s.ending = .text offset → ∃ offset', t.ending = .text offset'

variable {s s' s'' t t' : State} {c d m : Nat}

theorem IsBehind.refl (s : State) : s.IsBehind s 0 :=
  ⟨Nat.zero_le _, rfl, rfl, rfl⟩

theorem IsBehind.length (h : s.IsBehind s' c) : s'.tokens.length + c = s.tokens.length := by
  rw [h.tokens, List.length_drop, Nat.sub_add_cancel h.le]

theorem IsBehind.unique (h : s.IsBehind s' c) (h' : s.IsBehind s' d) : c = d :=
  Nat.add_left_cancel (h.length.trans h'.length.symm)

theorem IsBehind.trans (h : s.IsBehind s' c) (h' : s'.IsBehind s'' d) :
    s.IsBehind s'' (c + d) where
  le := by
    rw [← h.length, Nat.add_comm]
    exact Nat.add_le_add_right h'.le c
  tokens := by rw [h'.tokens, h.tokens, List.drop_drop]
  ending := h'.ending.trans h.ending
  rounds := h'.rounds.trans h.rounds

theorem IsBehind.hasRounds (h : s.IsBehind s' c) (hs : s.HasRounds) : s'.HasRounds := by
  have hlength := h.length
  rw [HasRounds] at hs ⊢
  rw [h.rounds]
  omega

theorem IsBehind.ahead (h : s.IsBehind s' c) (distance : Nat) :
    s'.ahead distance = s.ahead (c + distance) := by
  rw [State.ahead, State.ahead, h.tokens, List.getElem?_drop]

theorem Resembles.mono (h : s.Resembles t m) (hle : d ≤ m) : s.Resembles t d :=
  ⟨fun distance hlt => h.ahead distance (Nat.lt_of_lt_of_le hlt hle), h.ending⟩

/-- States that resemble each other still do behind as many tokens of each. -/
theorem Resembles.behind (h : s.Resembles t (c + m)) (hs : s.IsBehind s' c)
    (ht : t.IsBehind t' c) : s'.Resembles t' m := by
  refine ⟨fun distance hlt => ?_, fun offset hoffset => ?_⟩
  · rw [hs.ahead, ht.ahead]
    exact h.ahead _ (Nat.add_lt_add_left hlt c)
  · rw [hs.ending] at hoffset
    rw [ht.ending]
    exact h.ending offset hoffset

theorem ahead_zero (s : State) : s.ahead 0 = s.tokens.head?.map (·.kind) := by
  rw [State.ahead, List.head?_eq_getElem?]

/-- The state behind the next token. -/
def skip (s : State) (token : Token) : State :=
  { s with tokens := s.tokens.tail, lastStop := token.stop }

theorem isBehind_skip {token : Token} (h : s.tokens.head? = some token) :
    s.IsBehind (s.skip token) 1 := by
  obtain ⟨rest, hrest⟩ := List.head?_eq_some_iff.mp h
  refine ⟨?_, ?_, rfl, rfl⟩
  · rw [hrest]
    exact Nat.le_add_left 1 _
  · rw [skip, hrest]
    rfl

theorem load_skip {token : Token} (h : s.tokens.head? = some token) :
    (s.skip token).load + token.kind.weight = s.load := by
  obtain ⟨rest, hrest⟩ := List.head?_eq_some_iff.mp h
  rw [load, load, skip, hrest, List.tail_cons, Token.weightAll_cons, Nat.add_comm]

end State

/-! ### Steps of a parser -/

variable {α β ε ζ : Type}

theorem bind_eq_ok {p : Parser α} {f : α → Parser β} {s s'' : State} {b : β} :
    (p >>= f) s = .ok (b, s'') ↔ ∃ a s', p s = .ok (a, s') ∧ f a s' = .ok (b, s'') := by
  have hbind : ∀ answer, p s = .ok answer → (p >>= f) s = f answer.1 answer.2 := by
    intro answer hp
    simp only [bind, StateT.bind, hp, Except.bind]
  constructor
  · intro h
    cases hp : p s with
    | error fault =>
      simp only [bind, StateT.bind, hp, Except.bind] at h
      cases h
    | ok answer => exact ⟨answer.1, answer.2, rfl, (hbind answer hp).symm.trans h⟩
  · rintro ⟨a, s', hp, hf⟩
    exact (hbind (a, s') hp).trans hf

theorem discard_bind (p : Parser α) (f : PUnit → Parser β) :
    (discard p >>= f) = p >>= fun _ => f ⟨⟩ := by
  have h : discard p = (fun _ => PUnit.unit) <$> p := rfl
  rw [h, bind_map_left]

variable {s s' : State}

/-- The next token is looked at where there is one, or where the text has come to its end. -/
theorem peekToken?_eq_ok {found : Option Token} :
    peekToken? s = .ok (found, s') ↔ s' = s ∧ found = s.tokens.head? ∧
      (s.ahead 0 = none → ∃ offset, s.ending = .text offset) := by
  obtain ⟨tokens, ending, lastStop, rounds⟩ := s
  cases tokens with
  | nil =>
    cases ending with
    | text offset =>
      have h : peekToken? ⟨[], .text offset, lastStop, rounds⟩ =
          .ok (none, ⟨[], .text offset, lastStop, rounds⟩) := rfl
      simp [h, eq_comm, and_comm]
    | fault fault =>
      have h : peekToken? ⟨[], .fault fault, lastStop, rounds⟩ = .error fault := rfl
      simp [h, State.ahead]
  | cons token tokens =>
    have h : peekToken? ⟨token :: tokens, ending, lastStop, rounds⟩ =
        .ok (some token, ⟨token :: tokens, ending, lastStop, rounds⟩) := rfl
    simp [h, State.ahead, eq_comm, and_comm]

theorem peek?_eq_ok {kind : Option Kind} :
    peek? s = .ok (kind, s') ↔ s' = s ∧ kind = s.ahead 0 ∧
      (s.ahead 0 = none → ∃ offset, s.ending = .text offset) := by
  rw [peek?, bind_eq_ok]
  constructor
  · rintro ⟨found, s₁, hfound, hpure⟩
    obtain ⟨rfl, rfl, hend⟩ := peekToken?_eq_ok.mp hfound
    cases hpure
    exact ⟨rfl, (State.ahead_zero _).symm, hend⟩
  · rintro ⟨rfl, rfl, hend⟩
    refine ⟨_, s', peekToken?_eq_ok.mpr ⟨rfl, rfl, hend⟩, ?_⟩
    rw [s'.ahead_zero]
    rfl

theorem unexpected_ne_ok {a : α} : unexpected s ≠ .ok (a, s') := by
  intro h
  obtain ⟨found, s₁, -, h⟩ := bind_eq_ok.mp h
  cases found with
  | none =>
    obtain ⟨_, _, -, h⟩ := bind_eq_ok.mp h
    cases h
  | some token =>
    dsimp only at h
    split at h <;> cases h

theorem take_eq_ok {token : Token} :
    take s = .ok (token, s') ↔ s.tokens.head? = some token ∧ s' = s.skip token := by
  rw [take, bind_eq_ok]
  constructor
  · rintro ⟨found, s₁, hfound, h⟩
    obtain ⟨rfl, rfl, -⟩ := peekToken?_eq_ok.mp hfound
    cases hhead : s₁.tokens.head? with
    | none =>
      rw [hhead] at h
      exact absurd h unexpected_ne_ok
    | some head =>
      rw [hhead] at h
      cases h
      exact ⟨rfl, rfl⟩
  · rintro ⟨hhead, rfl⟩
    refine ⟨some token, s, peekToken?_eq_ok.mpr ⟨rfl, hhead.symm, fun hnone => ?_⟩, rfl⟩
    rw [s.ahead_zero, hhead] at hnone
    cases hnone

theorem atAny?_eq_ok {test : Kind → Bool} {found : Bool} (h : atAny? test s = .ok (found, s')) :
    s' = s := by
  obtain ⟨kind, s₁, hkind, hpure⟩ := bind_eq_ok.mp h
  cases hpure
  exact (peek?_eq_ok.mp hkind).1

/-- What holds of a value and the state, and is kept by a step, holds at the end of a loop. -/
theorem loop_invariant {step : α → Parser (α × Bool)} (Invariant : α → State → Prop)
    (hstep : ∀ a s x s', Invariant a s → step a s = .ok (x, s') → Invariant x.1 s')
    (rounds : Nat) {a x : α} {s s' : State} (ha : Invariant a s)
    (h : loop step rounds a s = .ok (x, s')) : Invariant x s' := by
  induction rounds generalizing a s with
  | zero =>
    cases h
    exact ha
  | succ rounds ih =>
    obtain ⟨⟨v, more⟩, s₁, hv, h⟩ := bind_eq_ok.mp h
    have hv := hstep a s _ s₁ ha hv
    cases more with
    | false =>
      cases h
      exact hv
    | true => exact ih hv h

theorem mem_manyWhile {test : Kind → Bool} {item : Parser α} (Invariant : State → Prop)
    {Good : α → Prop}
    (hitem : ∀ s a s', Invariant s → item s = .ok (a, s') → Good a ∧ Invariant s')
    {items : List α} (hs : Invariant s) (h : manyWhile test item s = .ok (items, s')) :
    ∀ a ∈ items, Good a := by
  obtain ⟨found, s₁, hfound, hpure⟩ := bind_eq_ok.mp h
  cases hpure
  have hloop := loop_invariant (fun items s => (∀ a ∈ items, Good a) ∧ Invariant s)
    ?_ s.rounds ⟨List.forall_mem_nil _, hs⟩ hfound
  · exact fun a ha => hloop.1 a (List.mem_reverse.mp ha)
  · rintro items s x s' ⟨hitems, hs⟩ hx
    obtain ⟨more, s₁, hmore, hx⟩ := bind_eq_ok.mp hx
    obtain rfl := atAny?_eq_ok hmore
    cases more with
    | false =>
      cases hx
      exact ⟨hitems, hs⟩
    | true =>
      obtain ⟨a, s₂, ha, hpure⟩ := bind_eq_ok.mp hx
      cases hpure
      obtain ⟨hgood, hs'⟩ := hitem _ _ _ hs ha
      exact ⟨List.forall_mem_cons.mpr ⟨hgood, hitems⟩, hs'⟩

/-! ### Shadows -/

/-- Wherever `p` answers in front of tokens of which the next one satisfies `first`, it has taken
tokens of at least the weight `least`; and `q` answers alike from each state with less than `limit`
left in it that resembles the other for two more tokens than `p` takes. -/
def Shadows (first : Option Kind → Prop) (limit : Nat) (least : α → Nat) (view : α → ε)
    (p q : Parser α) : Prop :=
  ∀ ⦃s a s'⦄, first (s.ahead 0) → s.HasRounds → p s = .ok (a, s') →
    ∃ c, s.IsBehind s' c ∧ s'.load + least a ≤ s.load ∧
      ∀ ⦃t⦄, t.HasRounds → t.load < limit → s.Resembles t (c + 2) →
        ∃ b t', q t = .ok (b, t') ∧ view a = view b ∧ t.IsBehind t' c ∧ t'.load + least a ≤ t.load

/-- Nothing is known about the next token. -/
abbrev Anything : Option Kind → Prop :=
  fun _ => True

/-- The answer does not matter. -/
abbrev blind : α → Unit :=
  fun _ => ()

variable {first first' : Option Kind → Prop} {n m : Nat} {least least' : α → Nat}
  {view : α → ε} {view' : α → ζ} {p q : Parser α}

namespace Shadows

theorem mono (h : Shadows first n least view p q) (hfirst : ∀ kind, first' kind → first kind)
    (hle : m ≤ n) (hleast : ∀ a, least' a ≤ least a)
    (hview : ∀ a b, view a = view b → view' a = view' b) : Shadows first' m least' view' p q := by
  intro s a s' hs hrounds hp
  obtain ⟨c, hbehind, hload, hq⟩ := h (hfirst _ hs) hrounds hp
  have hle := hleast a
  refine ⟨c, hbehind, by omega, fun t ht hlt hres => ?_⟩
  obtain ⟨b, t', hb, hab, htbehind, htload⟩ := hq ht (by omega) hres
  exact ⟨b, t', hb, hview a b hab, htbehind, by omega⟩

theorem of_first (h : Shadows first n least view p q)
    (hfirst : ∀ kind, first' kind → first kind) : Shadows first' n least view p q :=
  h.mono hfirst (Nat.le_refl n) (fun _ => Nat.le_refl _) fun _ _ hab => hab

theorem of_le (h : Shadows first n least view p q) (hle : m ≤ n) :
    Shadows first m least view p q :=
  h.mono (fun _ hkind => hkind) hle (fun _ => Nat.le_refl _) fun _ _ hab => hab

theorem weaken (h : Shadows first n least view p q) (hleast : ∀ a, least' a ≤ least a) :
    Shadows first n least' view p q :=
  h.mono (fun _ hkind => hkind) (Nat.le_refl n) hleast fun _ _ hab => hab

/-- It does not matter how much is taken. -/
theorem forget (h : Shadows first n least view p q) : Shadows first n (fun _ => 0) view p q :=
  h.weaken fun _ => Nat.zero_le _

/-! ### One step after another -/

section

variable {least₂ : β → Nat} {view₂ : β → ζ} {f g : α → Parser β}

/-- What the first step takes is no longer there for the second. About the token behind it may
something be known (`first₂`), and about what the second parser answers from where it has to answer
(`known`). -/
private theorem compose {first₂ : Option Kind → Prop} {known : α → Prop}
    (hp : Shadows first n least view p q)
    (hfirst : ∀ s a s', first (s.ahead 0) → p s = .ok (a, s') → first₂ (s'.ahead 0))
    (hknown : ∀ t b t', t.load < n → q t = .ok (b, t') → known b)
    (hf : ∀ a b m, view a = view b → m ≤ n - least a → (0 < m → known b) →
      Shadows first₂ m (fun x => least₂ x - least a) view₂ (f a) (g b)) :
    Shadows first n least₂ view₂ (p >>= f) (q >>= g) := by
  intro s x s'' hs hrounds h
  obtain ⟨a, s', ha, hx⟩ := bind_eq_ok.mp h
  obtain ⟨c, hbehind, hload, hq⟩ := hp hs hrounds ha
  have hs' := hfirst s a s' hs ha
  have hrounds' := hbehind.hasRounds hrounds
  have hnone : 0 < 0 → known a := fun h => absurd h (Nat.lt_irrefl 0)
  -- With a limit of nothing, this only tells how much the second step takes.
  obtain ⟨d, hbehind', hload', -⟩ := hf a a 0 rfl (Nat.zero_le _) hnone hs' hrounds' hx
  dsimp only at hload'
  refine ⟨c + d, hbehind.trans hbehind', by omega, fun t ht hlt hres => ?_⟩
  obtain ⟨b, t', hb, hab, htbehind, htload⟩ := hq ht hlt (hres.mono (by omega))
  obtain ⟨d', hbehind'', -, hq'⟩ :=
    hf a b _ hab (Nat.le_refl _) (fun _ => hknown t b t' hlt hb) hs' hrounds' hx
  obtain rfl := hbehind''.unique hbehind'
  rw [Nat.add_assoc] at hres
  obtain ⟨y, t'', hy, hxy, htbehind', htload'⟩ :=
    hq' (htbehind.hasRounds ht) (by omega) (hres.behind hbehind htbehind)
  dsimp only at htload'
  exact ⟨y, t'', bind_eq_ok.mpr ⟨b, t', hb, hy⟩, hxy, htbehind.trans htbehind', by omega⟩

theorem seq (hp : Shadows first n least view p q)
    (hf : ∀ a b, view a = view b →
      Shadows Anything (n - least a) (fun x => least₂ x - least a) view₂ (f a) (g b)) :
    Shadows first n least₂ view₂ (p >>= f) (q >>= g) :=
  hp.compose (fun _ _ _ _ _ => trivial) (fun _ _ _ _ _ => trivial)
    fun a b _ hab hle _ => (hf a b hab).of_le hle

/-- The first step may take nothing. -/
theorem bind (hp : Shadows first n (fun _ => 0) view p q)
    (hf : ∀ a b, view a = view b → Shadows Anything n least₂ view₂ (f a) (g b)) :
    Shadows first n least₂ view₂ (p >>= f) (q >>= g) :=
  hp.seq hf

/-- The first step takes something, and the second has less left. -/
theorem behind (hp : Shadows first (n + 1) (fun _ => 1) view p q)
    (hf : ∀ a b, view a = view b → Shadows Anything n (fun _ => 0) view₂ (f a) (g b)) :
    Shadows first (n + 1) (fun _ => 1) view₂ (p >>= f) (q >>= g) :=
  hp.seq hf

/-- The first step takes something, so the second need not. -/
theorem lead (hp : Shadows first n (fun _ => 1) view p q)
    (hf : ∀ a b, view a = view b → Shadows Anything n (fun _ => 0) view₂ (f a) (g b)) :
    Shadows first n (fun _ => 1) view₂ (p >>= f) (q >>= g) :=
  hp.seq fun a b hab => (hf a b hab).of_le (Nat.sub_le n 1)

/-- The first step takes nothing at all, so the next token is still what it was. -/
theorem bind_still (hp : Shadows first n (fun _ => 0) view p q)
    (hstill : ∀ s a s', p s = .ok (a, s') → s' = s)
    (hf : ∀ a b, view a = view b → Shadows first n least₂ view₂ (f a) (g b)) :
    Shadows first n least₂ view₂ (p >>= f) (q >>= g) := by
  refine hp.compose (fun s a s' hs ha => ?_) (fun _ _ _ _ _ => trivial)
    fun a b _ hab hle _ => (hf a b hab).of_le hle
  rwa [hstill s a s' ha]

/-- Something is known about what the second parser answers where it has to answer. -/
theorem seq_knowing (known : α → Prop) (hp : Shadows first n least view p q)
    (hknown : ∀ t b t', t.load < n → q t = .ok (b, t') → known b)
    (hf : ∀ a b m, view a = view b → m ≤ n - least a → (0 < m → known b) →
      Shadows Anything m (fun x => least₂ x - least a) view₂ (f a) (g b)) :
    Shadows first n least₂ view₂ (p >>= f) (q >>= g) :=
  hp.compose (fun _ _ _ _ _ => trivial) hknown hf

end

protected theorem pure {a b : α} (h : view a = view b) (hleast : least a = 0) :
    Shadows first n least view (pure a) (pure b) := by
  intro s x s' hs hrounds hx
  cases hx
  refine ⟨0, .refl s, ?_, fun t ht hlt hres => ⟨b, t, rfl, h, .refl t, ?_⟩⟩
  · omega
  · omega

protected theorem discard {k : Nat} (h : Shadows first n (fun _ => k) view p q) :
    Shadows first n (fun _ => k) blind (discard p) (discard q) := by
  have hpure : ∀ p : Parser α, Functor.discard p = p >>= fun _ => pure () := fun p =>
    (bind_pure _).symm.trans (discard_bind p pure)
  rw [hpure, hpure]
  exact h.seq fun _ _ _ => .pure rfl (Nat.sub_self k)

/-- A choice by something that both know. -/
protected theorem ite {c : Prop} [Decidable c] {p' q' : Parser α}
    (hpos : c → Shadows first n least view p q) (hneg : ¬ c → Shadows first n least view p' q') :
    Shadows first n least view (if c then p else p') (if c then q else q') := by
  by_cases h : c
  · rw [if_pos h, if_pos h]
    exact hpos h
  · rw [if_neg h, if_neg h]
    exact hneg h

/-- A check that finds no fault in the one finds none in the other. -/
protected theorem check {result result' : Except Fault α}
    (h : 0 < n → ∀ a, result = .ok a → result' = .ok a) :
    Shadows first n (fun _ => 0) id (Grammar.check result) (Grammar.check result') := by
  intro s a s' hs hrounds ha
  cases result with
  | error fault => cases ha
  | ok value =>
    cases ha
    refine ⟨0, .refl s, Nat.le_refl _, fun t _ hlt _ => ?_⟩
    rw [h (Nat.zero_lt_of_lt hlt) _ rfl]
    exact ⟨_, t, rfl, rfl, .refl t, Nat.le_refl _⟩

/-! ### Looking at tokens -/

section

variable {f g : Option Kind → Parser α}

theorem peek (h : ∀ kind, first kind → Shadows (· = kind) n least view (f kind) (g kind)) :
    Shadows first n least view (peek? >>= f) (peek? >>= g) := by
  intro s x s'' hs hrounds hx
  obtain ⟨kind, s', hkind, hx⟩ := bind_eq_ok.mp hx
  obtain ⟨rfl, rfl, hend⟩ := peek?_eq_ok.mp hkind
  obtain ⟨c, hbehind, hload, hq⟩ := h _ hs rfl hrounds hx
  refine ⟨c, hbehind, hload, fun t ht hlt hres => ?_⟩
  obtain ⟨y, t', hy, hrest⟩ := hq ht hlt hres
  have hahead := hres.ahead 0 (by omega)
  refine ⟨y, t', bind_eq_ok.mpr ⟨_, t, peek?_eq_ok.mpr ⟨rfl, hahead, fun hnone => ?_⟩, hy⟩, hrest⟩
  obtain ⟨offset, hoffset⟩ := hend (hahead.trans hnone)
  exact hres.ending offset hoffset

theorem second (h : ∀ kind, Shadows first n least view (f kind) (g kind)) :
    Shadows first n least view (second? >>= f) (second? >>= g) := by
  intro s x s'' hs hrounds hx
  obtain ⟨c, hbehind, hload, hq⟩ := h (s.ahead 1) hs hrounds hx
  refine ⟨c, hbehind, hload, fun t ht hlt hres => ?_⟩
  obtain ⟨y, t', hy, hrest⟩ := hq ht hlt hres
  rw [hres.ahead 1 (by omega)] at hy
  exact ⟨y, t', hy, hrest⟩

end

section

variable {f g : Bool → Parser α}

theorem lookAny (test : Kind → Bool)
    (htrue : Shadows (fun kind => kind.any test = true) n least view (f true) (g true))
    (hfalse : Shadows (fun kind => first kind ∧ kind.any test = false) n least view
      (f false) (g false)) :
    Shadows first n least view (atAny? test >>= f) (atAny? test >>= g) := by
  simp only [atAny?, bind_assoc, pure_bind]
  refine peek fun kind hkind => ?_
  have hstep : ∀ b, kind.any test = b → Shadows (· = kind) n least view (f b) (g b) := by
    rintro (_ | _) htest
    · refine hfalse.of_first ?_
      rintro _ rfl
      exact ⟨hkind, htest⟩
    · refine htrue.of_first ?_
      rintro _ rfl
      exact htest
  cases kind with
  | none => exact hstep _ rfl
  | some kind => exact hstep _ rfl

theorem lookAt (kind : Kind)
    (htrue : Shadows (· = some kind) n least view (f true) (g true))
    (hfalse : Shadows (fun kind' => first kind' ∧ kind' ≠ some kind) n least view
      (f false) (g false)) :
    Shadows first n least view (at? kind >>= f) (at? kind >>= g) := by
  simp only [at?, bind_assoc, pure_bind]
  refine peek fun kind' hkind' => ?_
  by_cases hkind : kind' = some kind
  · rw [beq_iff_eq.mpr hkind, hkind]
    exact htrue
  · rw [beq_eq_false_iff_ne.mpr hkind]
    refine hfalse.of_first ?_
    rintro _ rfl
    exact ⟨hkind', hkind⟩

end

section

variable {p' q' : Parser α}

theorem ifAny (test : Kind → Bool)
    (hthen : Shadows (fun kind => kind.any test = true) n least view p q)
    (helse : Shadows (fun kind => first kind ∧ kind.any test = false) n least view p' q') :
    Shadows first n least view (do if ← atAny? test then p else p')
      (do if ← atAny? test then q else q') :=
  lookAny test hthen helse

theorem ifAt (kind : Kind) (hthen : Shadows (· = some kind) n least view p q)
    (helse : Shadows (fun kind' => first kind' ∧ kind' ≠ some kind) n least view p' q') :
    Shadows first n least view (do if ← at? kind then p else p')
      (do if ← at? kind then q else q') :=
  lookAt kind hthen helse

end

/-- A parser that never answers. -/
theorem never (h : ∀ s a s', p s ≠ .ok (a, s')) : Shadows first n least view p q :=
  fun s a s' _ _ ha => absurd ha (h s a s')

theorem unexpected : Shadows first n least view unexpected q :=
  never fun _ _ _ => unexpected_ne_ok

theorem require (test : Kind → Bool) :
    Shadows first n (fun _ => 0) blind (Grammar.require test) (Grammar.require test) :=
  ifAny test (.pure rfl rfl) unexpected

/-! ### Taking tokens -/

/-- The next token is taken with what it weighs. -/
private theorem take_weight :
    Shadows first n (fun token => token.kind.weight) Token.kind take take := by
  intro s token s' hs hrounds h
  obtain ⟨hhead, rfl⟩ := take_eq_ok.mp h
  refine ⟨1, State.isBehind_skip hhead, Nat.le_of_eq (State.load_skip hhead),
    fun t ht hlt hres => ?_⟩
  have hahead := hres.ahead 0 (by omega)
  rw [s.ahead_zero, t.ahead_zero, hhead] at hahead
  obtain ⟨token', hhead', hkind⟩ := Option.map_eq_some_iff.mp hahead.symm
  have hload := State.load_skip hhead'
  rw [hkind] at hload
  exact ⟨token', t.skip token', take_eq_ok.mpr ⟨hhead', rfl⟩, hkind.symm,
    State.isBehind_skip hhead', Nat.le_of_eq hload⟩

theorem take : Shadows first n (fun _ => 0) Token.kind take take :=
  take_weight.weaken fun _ => Nat.zero_le _

/-- A token that is neither of those without weight. -/
theorem take_lead (hindent : ¬ first (some .indent)) (hdedent : ¬ first (some .dedent)) :
    Shadows first n (fun _ => 1) Token.kind Parser.take Parser.take := by
  intro s token s' hs hrounds h
  have hpos : 1 ≤ token.kind.weight := by
    rw [s.ahead_zero, (take_eq_ok.mp h).1] at hs
    refine Kind.weight_pos ?_ ?_
    · intro hkind
      exact hindent (hkind ▸ hs)
    · intro hkind
      exact hdedent (hkind ▸ hs)
  obtain ⟨c, hbehind, hload, hq⟩ := take_weight hs hrounds h
  refine ⟨c, hbehind, Nat.le_trans (Nat.add_le_add_left hpos _) hload, fun t ht hlt hres => ?_⟩
  obtain ⟨token', t', htoken', hkind, htbehind, htload⟩ := hq ht hlt hres
  exact ⟨token', t', htoken', hkind, htbehind,
    Nat.le_trans (Nat.add_le_add_left hpos _) htload⟩

theorem expect (kind : Kind) (h : 1 ≤ kind.weight) :
    Shadows first n (fun _ => 1) Token.kind (expect kind) (expect kind) := by
  refine ifAt kind (take_lead ?_ ?_) unexpected
  · intro hkind
    rw [← Option.some.inj hkind] at h
    exact absurd h (by decide)
  · intro hkind
    rw [← Option.some.inj hkind] at h
    exact absurd h (by decide)

/-- A token that is only asked for. -/
theorem expected {kind : Kind} :
    Shadows first n (fun _ => 0) blind (discard (Parser.expect kind))
      (discard (Parser.expect kind)) := by
  have hexpect : Shadows first n (fun _ => 0) Token.kind (Parser.expect kind)
      (Parser.expect kind) := ifAt kind take unexpected
  exact hexpect.discard

theorem ifAccept {kind : Kind} {p' q' : Parser α}
    (hthen : Shadows (· = some kind) n least view (do let _ ← Parser.take; p)
      (do let _ ← Parser.take; q))
    (helse : Shadows (fun kind' => first kind' ∧ kind' ≠ some kind) n least view p' q') :
    Shadows first n least view (do if ← accept? kind then p else p')
      (do if ← accept? kind then q else q') := by
  have haccept : ∀ p p' : Parser α, (do if ← accept? kind then p else p') =
      at? kind >>= fun isThere => if isThere then (do let _ ← Parser.take; p) else p' := by
    intro p p'
    rw [accept?, bind_assoc]
    congr 1
    funext isThere
    cases isThere
    · exact pure_bind _ _
    · simp only [if_true, bind_assoc, pure_bind, discard_bind]
  rw [haccept, haccept]
  exact ifAt kind hthen helse

theorem accept {kind : Kind} : Shadows first n (fun _ => 0) id (accept? kind) (accept? kind) := by
  exact ifAt kind (take.discard.bind fun _ _ _ => .pure rfl rfl) (.pure rfl rfl)

theorem name : Shadows first n (fun _ => 1) Prod.snd name name := by
  refine peek fun kind _ => ?_
  split
  · exact (take_lead nofun nofun).lead fun _ _ _ => .pure rfl rfl
  · exact unexpected

/-! ### Places -/

theorem lastStop : Shadows first n (fun _ => 0) blind lastStop lastStop := by
  intro s a s' hs hrounds h
  cases h
  exact ⟨0, .refl s, Nat.le_refl _, fun t _ _ _ =>
    ⟨t.lastStop, t, rfl, rfl, .refl t, Nat.le_refl _⟩⟩

theorem peekToken : Shadows first n (fun _ => 0) (Option.map Token.kind) peekToken? peekToken? := by
  intro s found s' hs hrounds h
  obtain ⟨rfl, rfl, hend⟩ := peekToken?_eq_ok.mp h
  refine ⟨0, .refl s', Nat.le_refl _, fun t ht hlt hres => ?_⟩
  have hahead := hres.ahead 0 (by omega)
  refine ⟨t.tokens.head?, t, peekToken?_eq_ok.mpr ⟨rfl, rfl, fun hnone => ?_⟩, ?_, .refl t,
    Nat.le_refl _⟩
  · obtain ⟨offset, hoffset⟩ := hend (hahead.trans hnone)
    exact hres.ending offset hoffset
  · rwa [s'.ahead_zero, t.ahead_zero] at hahead

theorem nextStart_still {s s' : State} {start : Nat} (h : Parser.nextStart s = .ok (start, s')) :
    s' = s := by
  obtain ⟨found, s₁, hfound, h⟩ := bind_eq_ok.mp h
  obtain ⟨rfl, -, -⟩ := peekToken?_eq_ok.mp hfound
  cases found <;> cases h <;> rfl

theorem nextStart : Shadows first n (fun _ => 0) blind nextStart nextStart := by
  refine peekToken.bind fun found found' hfound => ?_
  cases found with
  | none =>
    obtain rfl : found' = none := Option.map_eq_none_iff.mp hfound.symm
    exact lastStop
  | some token =>
    obtain ⟨token', rfl, -⟩ := Option.map_eq_some_iff.mp hfound.symm
    exact .pure rfl rfl

/-! ### Loops -/

section

variable {step step' : α → Parser (α × Bool)}

/-- A loop of a number of rounds shadows another, whatever the number of rounds of that is, as long
as both have more rounds than there are tokens. -/
private def LoopShadows (first : Option Kind → Prop) (n least : Nat) (view : α → ε)
    (step step' : α → Parser (α × Bool)) (rounds : Nat) (a b : α) : Prop :=
  ∀ ⦃s x s'⦄, first (s.ahead 0) → s.tokens.length < rounds → s.HasRounds →
    loop step rounds a s = .ok (x, s') →
      ∃ c, s.IsBehind s' c ∧ s'.load + least ≤ s.load ∧
        ∀ ⦃t rounds'⦄, t.tokens.length < rounds' → t.HasRounds → t.load < n →
          s.Resembles t (c + 2) → ∃ y t', loop step' rounds' b t = .ok (y, t') ∧
            view x = view y ∧ t.IsBehind t' c ∧ t'.load + least ≤ t.load

/-- The step law. A step that asks for another one takes a token, so where there were more rounds
than tokens there still are. -/
private theorem loopShadows_succ {first : Option Kind → Prop} {least rounds : Nat} {a b : α}
    (hab : view a = view b)
    (hstep : ∀ b, view a = view b → Shadows first n (fun x => max least x.2.toNat)
      (fun x => (view x.1, x.2)) (step a) (step' b))
    (hrest : ∀ a b, view a = view b →
      LoopShadows Anything n 0 view step step' rounds a b) :
    LoopShadows first n least view step step' (rounds + 1) a b := by
  intro s x s' hs hlt hrounds h
  obtain ⟨⟨v, more⟩, s₁, hv, h⟩ := bind_eq_ok.mp h
  obtain ⟨c, hbehind, hload, hq⟩ := hstep b hab hs hrounds hv
  dsimp only at hload
  cases more with
  | false =>
    cases h
    refine ⟨c, hbehind, by omega, fun t rounds' hlt' ht htlt hres => ?_⟩
    obtain ⟨⟨w, more⟩, t₁, hw, hvw, htbehind, htload⟩ := hq ht htlt hres
    obtain ⟨hvw, rfl⟩ := Prod.mk.inj hvw
    dsimp only at htload
    obtain ⟨rounds', rfl⟩ := Nat.exists_eq_succ_of_ne_zero (Nat.ne_zero_of_lt hlt')
    exact ⟨w, t₁, bind_eq_ok.mpr ⟨_, _, hw, rfl⟩, hvw, htbehind, by omega⟩
  | true =>
    have hlength := hbehind.length
    rw [Bool.toNat_true] at hload
    -- Without a token taken, there would still be as much left as before.
    have hc : c ≠ 0 := by
      rintro rfl
      have htokens : s₁.tokens = s.tokens := hbehind.tokens
      rw [State.load, State.load, htokens] at hload
      omega
    obtain ⟨d, hbehind', hload', -⟩ :=
      hrest v v rfl trivial (by omega) (hbehind.hasRounds hrounds) h
    refine ⟨c + d, hbehind.trans hbehind', by omega, fun t rounds' hlt' ht htlt hres => ?_⟩
    obtain ⟨⟨w, more⟩, t₁, hw, hvw, htbehind, htload⟩ := hq ht htlt (hres.mono (by omega))
    obtain ⟨hvw, rfl⟩ := Prod.mk.inj hvw
    dsimp only [Bool.toNat_true] at htload
    have htlength := htbehind.length
    obtain ⟨d', hbehind'', -, hq'⟩ :=
      hrest v w hvw trivial (by omega) (hbehind.hasRounds hrounds) h
    obtain rfl := hbehind''.unique hbehind'
    obtain ⟨rounds', rfl⟩ := Nat.exists_eq_succ_of_ne_zero (Nat.ne_zero_of_lt hlt')
    have hlt' : t₁.tokens.length < rounds' := by omega
    rw [Nat.add_assoc] at hres
    obtain ⟨y, t', hy, hxy, htbehind', htload'⟩ := hq' hlt' (htbehind.hasRounds ht) (by omega)
      (hres.behind hbehind htbehind)
    exact ⟨y, t', bind_eq_ok.mpr ⟨_, _, hw, hy⟩, hxy, htbehind.trans htbehind', by omega⟩

/-- The run law, by induction on the rounds. -/
private theorem loopShadows
    (hstep : ∀ a b, view a = view b → Shadows Anything n (fun x => x.2.toNat)
      (fun x => (view x.1, x.2)) (step a) (step' b)) (rounds : Nat) :
    ∀ a b, view a = view b → LoopShadows Anything n 0 view step step' rounds a b := by
  induction rounds with
  | zero => exact fun a b _ s x s' _ hlt => absurd hlt (Nat.not_lt_zero _)
  | succ rounds ih =>
    refine fun a b hab => loopShadows_succ hab (fun b hab => ?_) ih
    exact (hstep a b hab).weaken fun x => Nat.le_of_eq (Nat.zero_max _)

/-- A loop takes what its first step takes. -/
theorem iterate_lead (view : α → ε) {least : Nat} {a b : α} (hab : view a = view b)
    (hfirst : ∀ b, view a = view b → Shadows first n (fun x => max least x.2.toNat)
      (fun x => (view x.1, x.2)) (step a) (step' b))
    (hstep : ∀ a b, view a = view b → Shadows Anything n (fun x => x.2.toNat)
      (fun x => (view x.1, x.2)) (step a) (step' b)) :
    Shadows first n (fun _ => least) view (iterate step a) (iterate step' b) := by
  intro s x s' hs hrounds h
  obtain ⟨rounds, hsucc⟩ := Nat.exists_eq_succ_of_ne_zero (Nat.ne_zero_of_lt hrounds)
  have hloop : loop step (rounds + 1) a s = .ok (x, s') := by
    rw [← Nat.succ_eq_add_one, ← hsucc]
    exact h
  have hlt : s.tokens.length < rounds + 1 := by
    rw [← Nat.succ_eq_add_one, ← hsucc]
    exact hrounds
  obtain ⟨c, hbehind, hload, hq⟩ :=
    loopShadows_succ hab hfirst (loopShadows hstep rounds) hs hlt hrounds hloop
  exact ⟨c, hbehind, hload, fun t ht hlt hres => hq ht ht hlt hres⟩

theorem iterate (view : α → ε) {a b : α} (hab : view a = view b)
    (hstep : ∀ a b, view a = view b → Shadows Anything n (fun x => x.2.toNat)
      (fun x => (view x.1, x.2)) (step a) (step' b)) :
    Shadows first n (fun _ => 0) view (iterate step a) (iterate step' b) := by
  refine iterate_lead view hab (fun b hab => ?_) hstep
  exact (hstep a b hab).mono (fun _ _ => trivial) (Nat.le_refl n)
    (fun x => Nat.le_of_eq (Nat.zero_max _)) fun _ _ h => h

end

/-- A step of a loop that asks for another one, after something was taken. -/
theorem again {γ : Type} {view : γ → ζ} {f g : α → γ} {view' : α → ε}
    (h : Shadows first n (fun _ => 1) view' p q)
    (hview : ∀ a b, view' a = view' b → view (f a) = view (g b)) :
    Shadows first n (fun _ => 1) (fun x : γ × Bool => (view x.1, x.2))
      (do pure (f (← p), true)) (do pure (g (← q), true)) := by
  refine h.lead fun a b hab => .pure ?_ rfl
  rw [hview a b hab]

theorem done {γ : Type} {view : γ → ζ} {a b : γ} (h : view a = view b) :
    Shadows first n (fun x : γ × Bool => x.2.toNat) (fun x => (view x.1, x.2))
      (pure (a, false)) (pure (b, false)) := by
  refine .pure ?_ rfl
  rw [h]

/-- The step of a loop that takes one item after another. -/
theorem oneMore {test : Kind → Bool}
    (h : Shadows (fun kind => kind.any test = true) n (fun _ => 1) view p q)
    {items items' : List α} (hitems : items.map view = items'.map view) :
    Shadows first n (fun x => x.2.toNat) (fun x : List α × Bool => (x.1.map view, x.2))
      (do if ← atAny? test then pure ((← p) :: items, true) else pure (items, false))
      (do if ← atAny? test then pure ((← q) :: items', true) else pure (items', false)) := by
  refine ifAny test ((h.again fun a b hab => ?_).weaken fun x => Bool.toNat_le x.2) (done hitems)
  rw [List.map_cons, List.map_cons, hab, hitems]

theorem manyWhile {test : Kind → Bool}
    (h : Shadows (fun kind => kind.any test = true) n (fun _ => 1) view p q) :
    Shadows first n (fun _ => 0) (List.map view) (manyWhile test p) (manyWhile test q) := by
  refine (iterate (List.map view) rfl fun _ _ => h.oneMore).bind
    fun items items' hitems => .pure ?_ rfl
  rw [List.map_reverse, List.map_reverse, hitems]

/-- In front of an item, there is one at least. -/
theorem manyWhile_lead {test : Kind → Bool}
    (h : Shadows (fun kind => kind.any test = true) n (fun _ => 1) view p q)
    (hfirst : ∀ kind, first kind → kind.any test = true) :
    Shadows first n (fun _ => 1) (List.map view) (Parser.manyWhile test p)
      (Parser.manyWhile test q) := by
  refine (iterate_lead (List.map view) rfl (fun items hitems => ?_)
    fun _ _ => h.oneMore).lead fun items items' hitems => .pure ?_ rfl
  · refine ifAny test ((h.again fun a b hab => ?_).weaken fun x => ?_) fun s _ _ hs => ?_
    · rw [List.map_cons, List.map_cons, hab, hitems]
    · exact Nat.max_le.mpr ⟨Nat.le_refl 1, Bool.toNat_le x.2⟩
    · exact absurd (hs.2.symm.trans (hfirst _ hs.1)) Bool.false_ne_true
  · rw [List.map_reverse, List.map_reverse, hitems]

/-- The items of a list, and whether a comma ends them. -/
def listView (view : α → ε) (found : List α × Bool) : List ε × Bool :=
  (found.1.map view, found.2)

theorem commaListFrom {starts : Kind → Bool} {a b : α} (hab : view a = view b)
    (h : Shadows (fun kind => kind.any starts = true) n (fun _ => 0) view p q) :
    Shadows first n (fun _ => 0) (listView view) (commaListFrom a starts p)
      (commaListFrom b starts q) := by
  refine (iterate (listView view) ?_ fun found found' hfound => ?_).bind
    fun found found' hfound => .pure ?_ rfl
  · rw [listView, listView, List.map_singleton, List.map_singleton, hab]
  · obtain ⟨items, trailing⟩ := found
    obtain ⟨items', trailing'⟩ := found'
    obtain ⟨hitems, -⟩ := Prod.mk.inj hfound
    refine ifAccept ?_ (done (congrArg (·, false) hitems))
    refine Shadows.weaken ((take_lead nofun nofun).lead fun _ _ _ => ?_) fun x => Bool.toNat_le x.2
    refine ifAny starts (h.bind fun a b hab => .pure ?_ rfl) (.pure ?_ rfl)
    · simp only [listView, List.map_cons, hab, hitems]
    · simp only [listView, hitems]
  · obtain ⟨hitems, htrailing⟩ := Prod.mk.inj hfound
    simp only [listView, List.map_reverse, hitems, htrailing]

theorem commaList {starts : Kind → Bool}
    (h : Shadows first n (fun _ => 1) view p q)
    (hrest : Shadows (fun kind => kind.any starts = true) n (fun _ => 0) view p q) :
    Shadows first n (fun _ => 1) (listView view) (commaList starts p) (commaList starts q) :=
  h.lead fun _ _ hab => commaListFrom hab hrest

end Shadows

end Grammar

end SourceOutline
