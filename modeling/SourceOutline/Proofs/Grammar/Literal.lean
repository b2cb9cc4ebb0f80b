import SourceOutline.Grammar.Literal

/-!
# Where a literal stands does not matter

Whether the content of a string literal can be read hangs on its characters and on the expressions
in its fields, but not on where it stands; and those expressions are shorter than the content, by
the two braces around each of them at least. So a literal that can be read at one place can be read
at any other, also with another reader for the expressions in fields, if that accepts the shorter
texts that the first one accepts (`read_eq_ok`, `readAll_eq_ok`).

Two readings are compared step by step (`Follows`): where the first one gets to a place, the second
one gets to a place with the same characters behind it.
-/

namespace SourceOutline.Grammar.Literal

open Text

/-- Where the first reading gets to a place with no more than a number of characters behind it, the
second one gets to a place with the same characters behind it. -/
def Follows (bound : Nat) (x y : Except Fault Place) : Prop :=
  ∀ place, x = .ok place → place.rest.length ≤ bound ∧
    ∃ place', y = .ok place' ∧ place.rest = place'.rest

variable {bound bound' : Nat} {place place' : Place} {x y : Except Fault Place}

theorem Follows.error {fault : Fault} : Follows bound (.error fault) y :=
  fun _ h => nomatch h

theorem Follows.ok (hbound : place.rest.length ≤ bound) (h : place.rest = place'.rest) :
    Follows bound (.ok place) (.ok place') := by
  intro reached hreached
  cases hreached
  exact ⟨hbound, place', rfl, h⟩

theorem Follows.mono (h : Follows bound x y) (hle : bound ≤ bound') : Follows bound' x y := by
  intro reached hreached
  obtain ⟨hbound, hy⟩ := h reached hreached
  exact ⟨Nat.le_trans hbound hle, hy⟩

theorem Follows.bind {f g : Place → Except Fault Place} (h : Follows bound x y)
    (hf : ∀ offset offset' (rest : List Char), rest.length ≤ bound →
      Follows bound' (f ⟨offset, rest⟩) (g ⟨offset', rest⟩)) :
    Follows bound' (x >>= f) (y >>= g) := by
  cases x with
  | error fault => exact .error
  | ok reached =>
    obtain ⟨hbound, ⟨offset', rest⟩, rfl, rfl⟩ := h reached rfl
    exact hf reached.offset offset' reached.rest hbound

theorem Follows.ite {c : Prop} [Decidable c] {x' y' : Except Fault Place}
    (hpos : c → Follows bound x y) (hneg : ¬ c → Follows bound x' y') :
    Follows bound (if c then x else x') (if c then y else y') := by
  by_cases h : c
  · rw [if_pos h, if_pos h]
    exact hpos h
  · rw [if_neg h, if_neg h]
    exact hneg h

/-! ### Escapes -/

variable {offset offset' : Nat} {rest : List Char}

theorem hexEscape_follows (count : Nat) :
    Follows rest.length (hexEscape count ⟨offset, rest⟩) (hexEscape count ⟨offset', rest⟩) := by
  rw [hexEscape, hexEscape]
  dsimp only
  split
  · refine .ite (fun _ => .ok ?_ rfl) fun _ => .error
    rw [List.length_drop]
    exact Nat.sub_le _ _
  · exact .error

theorem nameEscape_follows [CharacterNames] :
    Follows rest.length (nameEscape ⟨offset, rest⟩) (nameEscape ⟨offset', rest⟩) := by
  rw [nameEscape, nameEscape]
  dsimp only
  split
  · next tail =>
    simp only [Place.next]
    have hdrop := List.length_drop (i := (tail.takeWhile (· != '}')).length) (l := tail)
    split
    · exact .error
    · next head rest hrest =>
      rw [hrest] at hdrop
      refine .ite (fun _ => .error) fun _ => .ite (fun _ => .ok ?_ rfl) fun _ => .error
      dsimp only
      rw [List.length_cons] at hdrop ⊢
      omega
  · exact .error

theorem escape_follows [CharacterNames] (isBytes : Bool) :
    Follows rest.length (escape isBytes ⟨offset, rest⟩) (escape isBytes ⟨offset', rest⟩) := by
  cases rest with
  | nil => exact .error
  | cons c rest =>
    have hle : rest.length ≤ (c :: rest).length := Nat.le_succ _
    rw [escape, escape]
    dsimp only [Place.next]
    refine .ite (fun _ => .ok ?_ rfl) fun _ => .ite (fun _ => (hexEscape_follows 2).mono hle)
      fun _ => .ite (fun _ => (hexEscape_follows 4).mono hle)
        fun _ => .ite (fun _ => (hexEscape_follows 8).mono hle)
          fun _ => .ite (fun _ => nameEscape_follows.mono hle)
            fun _ => .ite (fun _ => .error) fun _ => .ok hle rfl
    dsimp only
    rw [List.length_drop]
    exact Nat.le_trans (Nat.sub_le _ _) hle

/-! ### Text and bytes -/

theorem readPlain_eq_ok [CharacterNames] {form : StringForm} {rounds : Nat}
    (h : readPlain form rounds ⟨offset, rest⟩ = .ok ()) :
    readPlain form rounds ⟨offset', rest⟩ = .ok () := by
  induction rounds generalizing offset offset' rest with
  | zero => rfl
  | succ rounds ih =>
    cases rest with
    | nil => rfl
    | cons c rest =>
      rw [readPlain] at h ⊢
      dsimp only [Place.next] at h ⊢
      by_cases hc : (decide (c = '\\') && !form.isRaw) = true
      · rw [if_pos hc] at h ⊢
        cases hescape : escape form.isBytes ⟨offset + c.utf8Size, rest⟩ with
        | error fault =>
          rw [hescape] at h
          cases h
        | ok reached =>
          obtain ⟨-, ⟨offset₂, rest₂⟩, hescape', rfl⟩ :=
            escape_follows form.isBytes reached hescape
          rw [hescape] at h
          rw [hescape']
          exact ih h
      · rw [if_neg hc] at h ⊢
        split at h
        · cases h
        · next hbytes =>
          rw [if_neg hbytes]
          exact ih h

/-! ### Fields -/

variable {embedded embedded' : Embedded} {start start' : Nat} {expression brackets : List Char}
  {showsItself : Bool}

theorem conversion_follows :
    Follows rest.length (conversion ⟨start, expression, brackets, showsItself⟩ ⟨offset, rest⟩)
      (conversion ⟨start', expression, brackets, showsItself⟩ ⟨offset', rest⟩) := by
  rw [conversion, conversion]
  refine .ite (fun _ => .error) fun _ => ?_
  cases rest with
  | nil => exact .error
  | cons c rest =>
    dsimp only [Place.next]
    refine .ite (fun _ => ?_) fun _ => .error
    split
    · exact .ok (Nat.le_succ _) rfl
    · exact .ok (Nat.le_succ _) rfl
    · exact .error

/-- A quoted part ends at the same character, or nowhere. -/
theorem quoted?_cases (quote : Char) (offset offset' : Nat) (rest : List Char) :
    (quoted? quote ⟨offset, rest⟩ = none ∧ quoted? quote ⟨offset', rest⟩ = none) ∨
      ∃ inside behind stop stop', inside.length + behind.length + 1 = rest.length ∧
        quoted? quote ⟨offset, rest⟩ = some (inside, ⟨stop, behind⟩) ∧
        quoted? quote ⟨offset', rest⟩ = some (inside, ⟨stop', behind⟩) := by
  rw [quoted?, quoted?]
  dsimp only
  have hdrop := List.length_drop (i := (rest.takeWhile (· != quote)).length) (l := rest)
  have htake := (List.takeWhile_prefix (l := rest) (· != quote)).length_le
  split
  · exact .inl ⟨rfl, rfl⟩
  · next head behind hbehind =>
    rw [hbehind, List.length_cons] at hdrop
    exact .inr ⟨_, behind, _, _, by omega, rfl, rfl⟩

theorem close_follows {opening closing : Char} {f g : Field → Except Fault Place}
    (h : ∀ brackets, Follows bound (f ⟨start, closing :: expression, brackets, showsItself⟩)
      (g ⟨start', closing :: expression, brackets, showsItself⟩)) :
    Follows bound
      (Field.close ⟨start, expression, brackets, showsItself⟩ opening closing offset >>= f)
      (Field.close ⟨start', expression, brackets, showsItself⟩ opening closing offset' >>= g) := by
  cases brackets with
  | nil => exact .error
  | cons bracket outer =>
    rw [Field.close, Field.close]
    dsimp only
    by_cases hbracket : bracket = opening
    · rw [if_pos hbracket, if_pos hbracket]
      exact h outer
    · rw [if_neg hbracket]
      exact .error

theorem endField_follows (h : embedded expression.reverse = .ok () →
      embedded' expression.reverse = .ok ()) :
    Follows rest.length
      (endField embedded ⟨start, expression, brackets, showsItself⟩ ⟨offset, rest⟩)
      (endField embedded' ⟨start', expression, brackets, showsItself⟩ ⟨offset', rest⟩) := by
  rw [endField, endField]
  refine .ite (fun _ => .error) fun _ => ?_
  dsimp only
  split
  · next hread =>
    rw [h hread]
    exact .ok (Nat.le_refl _) rfl
  · exact .error

/-! ### Format strings -/

/-- Format strings are read alike in a number of rounds, at any level. What is read of a field so
far and what is left are together shorter than the content, as the brace in front of the field is
neither. -/
structure ReadsAlike [CharacterNames] (embedded embedded' : Embedded) (isRaw : Bool)
    (content rounds : Nat) :
    Prop where
  format : ∀ {level offset offset' rest bound}, rest.length ≤ content → rest.length ≤ bound →
    Follows bound (readFormat embedded isRaw level rounds ⟨offset, rest⟩)
      (readFormat embedded' isRaw level rounds ⟨offset', rest⟩)
  field : ∀ {level start start' expression brackets showsItself offset offset' rest bound},
    expression.length + rest.length + 1 ≤ content → rest.length ≤ bound →
      Follows bound
        (readField embedded isRaw level rounds ⟨start, expression, brackets, showsItself⟩
          ⟨offset, rest⟩)
        (readField embedded' isRaw level rounds ⟨start', expression, brackets, showsItself⟩
          ⟨offset', rest⟩)
  fieldFormat : ∀ {level offset offset' rest bound}, rest.length ≤ content → rest.length ≤ bound →
    Follows bound (readFieldFormat embedded isRaw level rounds ⟨offset, rest⟩)
      (readFieldFormat embedded' isRaw level rounds ⟨offset', rest⟩)

section

variable [CharacterNames] {isRaw : Bool} {level content rounds : Nat}

/-- A field, and the text behind it. -/
theorem ReadsAlike.field_text (h : ReadsAlike embedded embedded' isRaw content rounds)
    (hrest : rest.length + 1 ≤ content) (hbound : rest.length ≤ bound) :
    Follows bound
      (do
        let closed ← readField embedded isRaw level rounds { start := offset } ⟨offset, rest⟩
        readFormat embedded isRaw level rounds closed)
      (do
        let closed ← readField embedded' isRaw level rounds { start := offset' } ⟨offset', rest⟩
        readFormat embedded' isRaw level rounds closed) := by
  refine Follows.bind (h.field ?_ (Nat.le_refl _)) fun _ _ behind hbehind =>
    h.format (by omega) (by omega)
  rw [List.length_nil]
  omega

theorem readFormat_follows (h : ReadsAlike embedded embedded' isRaw content rounds)
    (hrest : rest.length ≤ content) :
    Follows rest.length (readFormat embedded isRaw level (rounds + 1) ⟨offset, rest⟩)
      (readFormat embedded' isRaw level (rounds + 1) ⟨offset', rest⟩) := by
  rw [readFormat, readFormat]
  dsimp only
  split
  · exact .ok (Nat.le_refl _) rfl
  · next rest =>
    rw [List.length_cons] at hrest
    dsimp only [Place.next]
    split
    · next tail =>
      simp only [List.length_cons] at hrest ⊢
      refine .ite (fun _ => h.format (by omega) (by omega)) fun _ => h.field_text ?_ ?_
      · exact hrest
      · exact Nat.le_succ _
    · exact .error
    · exact h.field_text hrest (Nat.le_succ _)
  · next rest =>
    rw [List.length_cons] at hrest
    dsimp only [Place.next]
    refine .ite (fun _ => ?_) fun _ => .ok (Nat.le_refl _) rfl
    split
    · simp only [List.length_cons] at hrest ⊢
      exact h.format (by omega) (by omega)
    · exact .error
  · next c rest _ _ =>
    rw [List.length_cons] at hrest
    dsimp only [Place.next]
    refine .ite (fun _ => ?_) fun _ => h.format (by omega) (Nat.le_succ _)
    split
    · exact h.format (by omega) (Nat.le_succ _)
    · exact h.format (by omega) (Nat.le_succ _)
    · exact (escape_follows false).bind fun _ _ _ hbehind =>
        h.format (by omega) (Nat.le_succ_of_le hbehind)

theorem readField_follows (h : ReadsAlike embedded embedded' isRaw content rounds)
    (hembedded : ∀ text : List Char, text.length + 2 ≤ content → embedded text = .ok () →
      embedded' text = .ok ())
    (hrest : expression.length + rest.length + 1 ≤ content) :
    Follows rest.length
      (readField embedded isRaw level (rounds + 1) ⟨start, expression, brackets, showsItself⟩
        ⟨offset, rest⟩)
      (readField embedded' isRaw level (rounds + 1) ⟨start', expression, brackets, showsItself⟩
        ⟨offset', rest⟩) := by
  rw [readField, readField]
  cases rest with
  | nil => exact .error
  | cons c rest =>
    rw [List.length_cons] at hrest
    have hadd : (c :: expression).length + rest.length + 1 ≤ content := by
      rw [List.length_cons]
      omega
    have hclose : ∀ opening, Follows (c :: rest).length
        (do
          let field ← Field.close ⟨start, expression, brackets, showsItself⟩ opening c
            (offset + c.utf8Size)
          readField embedded isRaw level rounds field ⟨offset + c.utf8Size, rest⟩)
        (do
          let field ← Field.close ⟨start', expression, brackets, showsItself⟩ opening c
            (offset' + c.utf8Size)
          readField embedded' isRaw level rounds field ⟨offset' + c.utf8Size, rest⟩) :=
      fun opening => close_follows fun brackets => h.field hadd (Nat.le_succ _)
    dsimp only [Place.next, Field.add]
    refine .ite (fun hequals => ?_) fun _ => .ite (fun _ => ?_) fun _ => .ite (fun _ => ?_)
      fun _ => .ite (fun _ => ?_) fun _ => .ite (fun _ => ?_) fun _ => .ite (fun hc => ?_)
        fun _ => .ite (fun hc => ?_) fun _ => .ite (fun hc => ?_) fun _ =>
          .ite (fun hc => ?_) fun _ => .ite (fun _ => ?_) fun _ => .ite (fun _ => .error)
            fun _ => .ite (fun _ => .error) fun _ => h.field hadd (Nat.le_succ _)
    · -- A comparison sign of two characters.
      obtain ⟨tail, rfl⟩ : ∃ tail, rest = '=' :: tail := by
        simp only [Bool.and_eq_true, decide_eq_true_eq] at hequals
        exact List.head?_eq_some_iff.mp hequals.2
      simp only [List.length_cons] at hrest ⊢
      exact h.field (by simp only [List.length_cons]; omega) (by omega)
    · -- A conversion.
      exact conversion_follows.bind fun _ _ _ hbehind =>
        h.field (by omega) (Nat.le_succ_of_le hbehind)
    · -- The sign of a field that shows itself.
      exact h.field (by omega) (Nat.le_succ _)
    · -- The format of the field.
      exact (h.fieldFormat (by omega) (Nat.le_refl _)).bind fun _ _ _ hbehind =>
        h.field (by omega) (Nat.le_succ_of_le hbehind)
    · -- Brackets in the expression.
      exact h.field hadd (Nat.le_succ _)
    · exact hc ▸ hclose '('
    · exact hc ▸ hclose '['
    · -- The brace that closes the field, or one in the expression.
      refine .ite (fun _ => ?_) fun _ => hc ▸ hclose '{'
      refine (endField_follows (hembedded expression.reverse ?_)).mono (Nat.le_succ _)
      rw [List.length_reverse]
      omega
    · -- A string in the expression.
      rcases quoted?_cases c (offset + c.utf8Size) (offset' + c.utf8Size) rest with
        ⟨hnone, -⟩ | ⟨inside, behind, stop, stop', hlength, hquoted, hquoted'⟩
      · rw [hnone]
        exact .error
      · rw [hquoted, hquoted']
        refine h.field ?_ (Nat.le_succ_of_le (by omega))
        simp only [List.length_cons, List.length_append, List.length_reverse]
        omega
    · exact h.field (by omega) (Nat.le_succ _)

theorem readFieldFormat_follows (h : ReadsAlike embedded embedded' isRaw content rounds)
    (hrest : rest.length ≤ content) :
    Follows rest.length (readFieldFormat embedded isRaw level (rounds + 1) ⟨offset, rest⟩)
      (readFieldFormat embedded' isRaw level (rounds + 1) ⟨offset', rest⟩) := by
  rw [readFieldFormat, readFieldFormat]
  dsimp only
  split
  · exact .ok (Nat.le_refl _) rfl
  · exact .ok (Nat.le_refl _) rfl
  · refine .ite (fun _ => .error) fun _ => ?_
    exact (h.format hrest (Nat.le_refl _)).bind fun _ _ _ hbehind =>
      h.fieldFormat (by omega) hbehind
  · cases rest with
    | nil => exact h.fieldFormat hrest (Nat.le_refl _)
    | cons c rest => exact h.fieldFormat (Nat.le_of_succ_le hrest) (Nat.le_succ _)

/-- The run law, by induction on the rounds. -/
theorem readsAlike (h : ∀ text : List Char, text.length + 2 ≤ content → embedded text = .ok () →
      embedded' text = .ok ()) (isRaw : Bool) (rounds : Nat) :
    ReadsAlike embedded embedded' isRaw content rounds := by
  induction rounds with
  | zero => exact ⟨fun _ _ => .error, fun _ _ => .error, fun _ _ => .error⟩
  | succ rounds ih =>
    exact
      { format := fun hrest hbound => (readFormat_follows ih hrest).mono hbound
        field := fun hrest hbound => (readField_follows ih h hrest).mono hbound
        fieldFormat := fun hrest hbound => (readFieldFormat_follows ih hrest).mono hbound }

end

/-! ### Whole literals -/

/-- **A literal that can be read can be read anywhere.** -/
theorem read_eq_ok [CharacterNames] {literal : StringLiteral}
    (h : literal.form.isFormat = true → ∀ text : List Char,
      text.length + 2 ≤ literal.content.length → embedded text = .ok () →
        embedded' text = .ok ())
    (hread : read embedded literal start = .ok ()) : read embedded' literal start' = .ok () := by
  rw [read] at hread ⊢
  by_cases hformat : literal.form.isFormat = true
  · rw [if_pos hformat] at hread ⊢
    have halike := readsAlike (h hformat) literal.form.isRaw (2 * literal.content.length + 3)
    cases hreached : readFormat embedded literal.form.isRaw 0 (2 * literal.content.length + 3)
        ⟨start + literal.leadWidth, literal.content⟩ with
    | error fault =>
      rw [hreached] at hread
      cases hread
    | ok reached =>
      obtain ⟨-, place', hplace', -⟩ :=
        halike.format (Nat.le_refl _) (Nat.le_refl _) reached hreached
      rw [hplace']
      rfl
  · rw [if_neg hformat] at hread ⊢
    exact readPlain_eq_ok hread

theorem forM_read_eq_ok [CharacterNames] {literals literals' : List (StringLiteral × Nat)}
    (hsame : literals.map Prod.fst = literals'.map Prod.fst)
    (h : ∀ literal ∈ literals.map Prod.fst, literal.form.isFormat = true → ∀ text : List Char,
      text.length + 2 ≤ literal.content.length → embedded text = .ok () →
        embedded' text = .ok ())
    (hread : (literals.forM fun literal => read embedded literal.1 literal.2) = .ok ()) :
    (literals'.forM fun literal => read embedded' literal.1 literal.2) = .ok () := by
  induction literals generalizing literals' with
  | nil =>
    rw [List.map_nil, eq_comm, List.map_eq_nil_iff] at hsame
    rw [hsame]
    rfl
  | cons literal literals ih =>
    obtain ⟨literal', literals', rfl, hliteral, hsame⟩ := List.map_eq_cons_iff.mp hsame.symm
    rw [List.map_cons, List.forall_mem_cons] at h
    rw [List.forM] at hread ⊢
    cases hfirst : read embedded literal.1 literal.2 with
    | error fault =>
      rw [hfirst] at hread
      cases hread
    | ok _ =>
      rw [hfirst] at hread
      rw [hliteral, read_eq_ok h.1 hfirst]
      exact ih hsame.symm h.2 hread

/-- Adjacent literals can be read if all are bytes or none, and each of them can. -/
theorem readAll_eq_ok_iff [CharacterNames] {literals : List (StringLiteral × Nat)}
    {form : Expr.Form} :
    readAll embedded literals = .ok form ↔
      ¬ (literals.any (·.1.form.isBytes) && !literals.all (·.1.form.isBytes)) = true ∧
        (literals.forM fun literal => read embedded literal.1 literal.2) = .ok () ∧
        form = if literals.any (·.1.form.isFormat) then .formatString else .literal := by
  cases literals with
  | nil =>
    constructor
    · intro h
      cases h
      exact ⟨Bool.false_ne_true, rfl, rfl⟩
    · rintro ⟨-, -, rfl⟩
      rfl
  | cons literal literals =>
    obtain ⟨literal, start⟩ := literal
    rw [readAll]
    by_cases hmixed : (((literal, start) :: literals).any (·.1.form.isBytes) &&
        !((literal, start) :: literals).all (·.1.form.isBytes)) = true
    · rw [if_pos hmixed]
      exact iff_of_false (fun h => nomatch h) fun h => h.1 hmixed
    · rw [if_neg hmixed, and_iff_right hmixed]
      generalize (if ((literal, start) :: literals).any (·.1.form.isFormat) = true then
        Expr.Form.formatString else Expr.Form.literal) = form'
      change (((literal, start) :: literals).forM (fun literal => read embedded literal.1 literal.2)
        >>= fun _ => pure form') = .ok form ↔ _
      generalize ((literal, start) :: literals).forM
        (fun literal => read embedded literal.1 literal.2) = result
      cases result with
      | error fault => exact iff_of_false (fun h => nomatch h) fun h => nomatch h.1
      | ok _ =>
        constructor
        · intro h
          exact ⟨rfl, (Except.ok.inj h).symm⟩
        · rintro ⟨-, rfl⟩
          rfl

/-- So can adjacent literals, which make up the same form of expression. -/
theorem readAll_eq_ok [CharacterNames] {literals literals' : List (StringLiteral × Nat)}
    {form : Expr.Form} (hsame : literals.map Prod.fst = literals'.map Prod.fst)
    (h : ∀ literal ∈ literals.map Prod.fst, literal.form.isFormat = true → ∀ text : List Char,
      text.length + 2 ≤ literal.content.length → embedded text = .ok () →
        embedded' text = .ok ())
    (hread : readAll embedded literals = .ok form) : readAll embedded' literals' = .ok form := by
  have hany : ∀ test : StringLiteral → Bool,
      (literals'.any fun literal => test literal.1) =
        literals.any fun literal => test literal.1 := by
    intro test
    have hmap : ∀ literals : List (StringLiteral × Nat),
        (literals.any fun literal => test literal.1) = (literals.map Prod.fst).any test :=
      fun literals => List.any_map.symm
    rw [hmap, hmap, hsame]
  have hall : ∀ test : StringLiteral → Bool,
      (literals'.all fun literal => test literal.1) =
        literals.all fun literal => test literal.1 := by
    intro test
    rw [List.all_eq_not_any_not, List.all_eq_not_any_not, hany fun literal => !test literal]
  rw [readAll_eq_ok_iff] at hread ⊢
  rw [hany fun literal => literal.form.isBytes, hall fun literal => literal.form.isBytes,
    hany fun literal => literal.form.isFormat]
  exact ⟨hread.1, forM_read_eq_ok hsame h hread.2.1, hread.2.2⟩

end SourceOutline.Grammar.Literal
