import SourceOutline.Token.SoftKeyword

/-!
# What tokens weigh

Every token that is part of an expression is written with a character at least, and a string literal
with as many as its letters, its content and a quote on either side. Counted like that
(`Token.Kind.weight`), the tokens of a text weigh no more than it has characters, apart from the end
of the last line, which need not be written (`TokenStream.weightAll_ofText_le`). So whoever goes
through the tokens of a text and takes one in every step has taken them all after as many steps as
there are characters.

The scanner keeps what the tokens weigh so far within the number of characters that it has passed.
What it finds in one place is told by `Scanned.Within`.
-/

namespace SourceOutline

open Text

private theorem steps_eq_ok {α β : Type} {x : Except Fault α} {f : α → Except Fault β} {b : β} :
    (x >>= f) = .ok b ↔ ∃ a, x = .ok a ∧ f a = .ok b := by
  cases x with
  | error fault => simp [Bind.bind, Except.bind]
  | ok a => simp [Bind.bind, Except.bind]

namespace Cursor

/-- The number of characters that follow. -/
def left (cursor : Cursor) : Nat :=
  cursor.rest.length

theorem rest_advance (count : Nat) (cursor : Cursor) :
    (cursor.advance count).rest = cursor.rest.drop count := by
  induction count generalizing cursor with
  | zero => rfl
  | succ count ih =>
    obtain ⟨offset, _ | ⟨glyph, rest⟩⟩ := cursor
    · rfl
    · exact ih _

theorem left_advance (count : Nat) (cursor : Cursor) :
    (cursor.advance count).left = cursor.left - count := by
  rw [left, rest_advance, List.length_drop]
  rfl

theorem left_takeOnto_le (test : Char → Bool) (taken : List Char) (offset : Nat)
    (rest : List Glyph) : (takeOnto test taken offset rest).2.left ≤ rest.length := by
  induction rest generalizing taken offset with
  | nil => exact Nat.le_refl 0
  | cons glyph rest ih =>
    rw [takeOnto]
    split
    · exact Nat.le_succ_of_le (ih _ _)
    · exact Nat.le_refl _

theorem left_takeWhile_le (cursor : Cursor) (test : Char → Bool) :
    (cursor.takeWhile test).2.left ≤ cursor.left :=
  left_takeOnto_le test [] cursor.offset cursor.rest

variable {cursor : Cursor} {c : Char}

theorem peek?_eq_some_iff : cursor.peek? = some c ↔
    ∃ bytes rest, cursor.rest = ⟨c, bytes⟩ :: rest := by
  rw [peek?, Option.map_eq_some_iff]
  constructor
  · rintro ⟨glyph, hhead, rfl⟩
    obtain ⟨rest, hrest⟩ := List.head?_eq_some_iff.mp hhead
    exact ⟨glyph.bytes, rest, hrest⟩
  · rintro ⟨bytes, rest, hrest⟩
    exact ⟨⟨c, bytes⟩, by rw [hrest]; rfl, rfl⟩

theorem left_pos (h : cursor.peek? = some c) : 1 ≤ cursor.left := by
  obtain ⟨bytes, rest, hrest⟩ := peek?_eq_some_iff.mp h
  rw [left, hrest]
  exact Nat.le_add_left 1 _

theorem two_le_left (h : cursor.second? = some c) : 2 ≤ cursor.left := by
  obtain ⟨glyph, hglyph, -⟩ := Option.map_eq_some_iff.mp h
  exact (List.getElem?_eq_some_iff.mp hglyph).1

/-- A character that satisfies the condition is taken. -/
theorem left_takeWhile_lt {test : Char → Bool} (h : cursor.peek? = some c) (hc : test c = true) :
    (cursor.takeWhile test).2.left + 1 ≤ cursor.left := by
  obtain ⟨bytes, rest, hrest⟩ := peek?_eq_some_iff.mp h
  have htake : (cursor.takeWhile test).2 =
      (takeOnto test [c] (cursor.offset + bytes) rest).2 := by
    rw [takeWhile, hrest, takeOnto, if_pos hc]
  have hle := left_takeOnto_le test [c] (cursor.offset + bytes) rest
  rw [htake, left.eq_def cursor, hrest]
  exact Nat.succ_le_succ hle

theorem left_ofText_le (text : List Char) : (ofText text).left ≤ text.length := by
  have hglyphs : ∀ read, (Glyph.readOnto read text).length ≤ read.length + text.length := by
    intro read
    fun_induction Glyph.readOnto read text with
    | case1 => exact Nat.le_refl _
    | case2 read rest ih => simp only [List.length_cons] at ih ⊢; omega
    | case3 read rest _ ih => simp only [List.length_cons] at ih ⊢; omega
    | case4 read c rest _ _ ih => simp only [List.length_cons] at ih ⊢; omega
  have hlength : (Glyph.ofText text).length ≤ text.length := by
    rw [Glyph.ofText, List.length_reverse]
    exact Nat.le_trans (hglyphs []) (Nat.le_of_eq (Nat.zero_add _))
  rw [ofText]
  split
  · exact Nat.zero_le _
  · next glyph rest hrest =>
    rw [hrest] at hlength
    split
    · exact Nat.le_of_succ_le hlength
    · exact hlength

end Cursor

/-! ### Single tokens -/

namespace Token.Kind

/-- At most the number of characters that such a token is written with. -/
def weight : Token.Kind → Nat
  | string literal => literal.form.letters.length + literal.content.length + 2
  | indent | dedent => 0
  | _ => 1

theorem weight_pos {kind : Token.Kind} (hindent : kind ≠ indent) (hdedent : kind ≠ dedent) :
    1 ≤ kind.weight := by
  cases kind with
  | string literal => exact Nat.le_add_left 1 _
  | indent => exact absurd rfl hindent
  | dedent => exact absurd rfl hdedent
  | _ => exact Nat.le_refl 1

end Token.Kind

namespace Number

variable {cursor : Cursor} {c : Char}

theorem left_takeDigits_le (radix offset : Nat) (rest : List Glyph) :
    (takeDigits radix offset rest).2.left ≤ rest.length := by
  induction rest generalizing offset with
  | nil => exact Nat.le_refl 0
  | cons glyph rest ih =>
    rw [takeDigits]
    split
    · exact Nat.le_succ_of_le (ih _)
    · split
      · exact Nat.le_succ_of_le (ih _)
      · exact Nat.le_refl _

theorem left_digits_le (radix : Nat) (cursor : Cursor) :
    (digits radix cursor).2.left ≤ cursor.left :=
  left_takeDigits_le radix cursor.offset cursor.rest

theorem left_digits_lt {radix : Nat} (h : cursor.peek? = some c) (hc : isDigitOf radix c = true) :
    (digits radix cursor).2.left + 1 ≤ cursor.left := by
  obtain ⟨bytes, rest, hrest⟩ := Cursor.peek?_eq_some_iff.mp h
  have hle := left_takeDigits_le radix (cursor.offset + bytes) rest
  rw [digits, Cursor.left.eq_def cursor, hrest, takeDigits, if_pos hc]
  exact Nat.succ_le_succ hle

theorem isDigitOf_ten (h : Identifier.isDigit c = true) : isDigitOf 10 c = true := by
  have hvalue : digitValue? c = some (c.toNat - '0'.toNat) := if_pos h
  rw [isDigitOf, hvalue]
  simp only [Identifier.isDigit, Bool.and_eq_true, decide_eq_true_eq] at h ⊢
  have hle : c.toNat ≤ '9'.toNat := h.2
  have hzero : '0'.toNat = 48 := rfl
  have hnine : '9'.toNat = 57 := rfl
  omega

variable {found : List Char × Cursor}

theorem left_fraction_le (h : fraction cursor = .ok found) : found.2.left ≤ cursor.left := by
  rw [fraction] at h
  split at h
  · split at h
    · cases h
    · cases h
      refine Nat.le_trans (left_digits_le 10 _) ?_
      rw [Cursor.left_advance]
      exact Nat.sub_le _ _
  · cases h
    exact Nat.le_refl _

/-- The point of a fraction is taken. -/
theorem left_fraction_lt (hpoint : cursor.peek? = some '.') (h : fraction cursor = .ok found) :
    found.2.left + 1 ≤ cursor.left := by
  rw [fraction, if_pos hpoint] at h
  have hpos := Cursor.left_pos hpoint
  split at h
  · cases h
  · cases h
    have hle := left_digits_le 10 (cursor.advance 1)
    rw [Cursor.left_advance] at hle
    omega

theorem left_exponent_le {found : Int × Cursor} (h : exponent cursor = .ok found) :
    found.2.left ≤ cursor.left := by
  have hadvance : ∀ next : Cursor, next.left ≤ cursor.left → (next.advance 1).left ≤ cursor.left :=
    fun next hnext => by
      rw [Cursor.left_advance]
      exact Nat.le_trans (Nat.sub_le _ _) hnext
  have hsigned := hadvance cursor (Nat.le_refl _)
  rw [exponent] at h
  split at h
  case h_3 =>
    cases h
    exact Nat.le_refl _
  all_goals
    dsimp only at h
    split at h
    · cases h
    · split at h
      · cases h
      · split at h
        · split at h
          · cases h
          · cases h
            exact Nat.le_trans (left_digits_le 10 _) (hadvance _ hsigned)
        · split at h
          · cases h
          · cases h
            exact Nat.le_trans (left_digits_le 10 _) hsigned

/-- A number without radix begins with a digit or with a point, and takes it. -/
theorem scanDecimal_within {found : Token.Kind × Cursor} (hpeek : cursor.peek? = some c)
    (hc : Identifier.isDigit c = true ∨ c = '.') (h : scanDecimal cursor = .ok found) :
    found.1.weight + found.2.left ≤ cursor.left := by
  have hle := left_digits_le 10 cursor
  -- With no digit in front of it, it is the point that is taken, as part of the fraction.
  have hwhole : (digits 10 cursor).2.left + 1 ≤ cursor.left ∨
      (digits 10 cursor).2.peek? = some '.' := by
    rcases hc with hc | rfl
    · exact .inl (left_digits_lt hpeek (isDigitOf_ten hc))
    · obtain ⟨bytes, rest, hrest⟩ := Cursor.peek?_eq_some_iff.mp hpeek
      refine .inr ?_
      rw [digits, hrest]
      rfl
  rw [scanDecimal] at h
  dsimp only at h
  split at h
  · obtain ⟨part, hpart, h⟩ := steps_eq_ok.mp h
    obtain ⟨power, hpower, h⟩ := steps_eq_ok.mp h
    have hpower := left_exponent_le hpower
    have hlt : part.2.left + 1 ≤ cursor.left := by
      rcases hwhole with hlt | hpoint
      · have hpart := left_fraction_le hpart
        omega
      · have hpart := left_fraction_lt hpoint hpart
        omega
    have hend := Cursor.left_advance 1 power.2
    split at h
    · cases h
      show 1 + (power.2.advance 1).left ≤ cursor.left
      omega
    · cases h
      show 1 + power.2.left ≤ cursor.left
      omega
  · next hpoint =>
    have hlt : (digits 10 cursor).2.left + 1 ≤ cursor.left := by
      refine hwhole.resolve_right fun hpeek => hpoint ?_
      rw [hpeek]
      rfl
    have hend := Cursor.left_advance 1 (digits 10 cursor).2
    split at h
    · cases h
      show 1 + ((digits 10 cursor).2.advance 1).left ≤ cursor.left
      omega
    · split at h
      · cases h
      · cases h
        show 1 + (digits 10 cursor).2.left ≤ cursor.left
        omega

theorem scan_within {found : Token.Kind × Cursor} (hpeek : cursor.peek? = some c)
    (hc : Identifier.isDigit c = true ∨ c = '.') (h : scan cursor = .ok found) :
    found.1.weight + found.2.left ≤ cursor.left := by
  rw [scan] at h
  split at h
  · next radix _ hradix =>
    obtain ⟨letter, hletter, -⟩ := Option.bind_eq_some_iff.mp hradix
    have htwo := Cursor.two_le_left hletter
    have hle := left_digits_le radix (cursor.advance 2)
    rw [Cursor.left_advance] at hle
    rw [scanRadix] at h
    split at h
    · cases h
    · next digits next _ hdigits =>
      cases h
      rw [hdigits] at hle
      show 1 + next.left ≤ cursor.left
      dsimp only at hle
      omega
  · exact scanDecimal_within hpeek hc h

end Number

/-! ### What stands at a place -/

namespace Scanned

variable {cursor : Cursor}

/-- What stands at a place is written with the characters that follow there, and a token with as
many as it weighs. -/
def Within (cursor : Cursor) : Scanned → Prop
  | token kind next => kind.weight + next.left ≤ cursor.left
  | skipped next => next.left ≤ cursor.left
  | lineEnd next => 1 + next.left ≤ cursor.left
  | textEnd | fault _ => True

theorem literalContent_within {quote : Char} {triple : Bool} {content : List Char} {offset : Nat}
    {rest : List Glyph} {found : List Char × Cursor}
    (h : literalContent quote triple content offset rest = .ok found) :
    found.1.length + found.2.left + 1 ≤ content.length + rest.length := by
  fun_induction literalContent quote triple content offset rest with
  | case1 => cases h
  | case2 =>
    cases h
    exact Nat.le_refl _
  | case3 => cases h
  | case4 => cases h
  | case5 content offset glyph second rest next hbackslash ih =>
    have hle := ih h
    simp only [List.length_cons] at hle ⊢
    omega
  | case6 => cases h
  | case7 =>
    cases h
    simp only [Cursor.left, List.length_cons]
    omega
  | case8 =>
    cases h
    rw [Cursor.left_advance]
    simp only [Cursor.left, List.length_cons]
    omega
  | case9 content offset glyph second rest next _ _ _ _ ih =>
    have hle := ih h
    simp only [List.length_cons] at hle ⊢
    omega

theorem scanLiteral_within (form : StringForm) (cursor : Cursor) :
    (scanLiteral form cursor).Within cursor := by
  have hletters := Cursor.left_advance form.letters.length cursor
  have hquote := Cursor.left_advance 1 (cursor.advance form.letters.length)
  have hquotes := Cursor.left_advance 2 ((cursor.advance form.letters.length).advance 1)
  rw [scanLiteral]
  split
  · next content next hcontent =>
    have hle := literalContent_within hcontent
    have hinside : ∀ triple : Bool, (if triple = true then
        ((cursor.advance form.letters.length).advance 1).advance 2 else
        (cursor.advance form.letters.length).advance 1).left ≤
          cursor.left - form.letters.length - 1 := by
      intro triple
      cases triple with
      | true =>
        rw [if_pos rfl]
        omega
      | false =>
        rw [if_neg Bool.false_ne_true]
        omega
    have hle := Nat.le_trans hle (Nat.add_le_add_left (hinside _) _)
    rw [List.length_nil] at hle
    rw [Within, Token.Kind.weight, List.length_reverse]
    dsimp only at hle ⊢
    omega
  · trivial

theorem scanWord_within {c : Char} (h : cursor.peek? = some c)
    (hc : Identifier.isStart c = true) : (scanWord cursor).Within cursor := by
  have hlt := Cursor.left_takeWhile_lt h (Identifier.isContinue_of_isStart hc)
  rw [Nat.add_comm] at hlt
  rw [scanWord]
  dsimp only
  split
  · exact hlt
  · exact hlt

theorem length_of_mem_symbols {entry : List Char × Symbol} (h : entry ∈ symbols) :
    1 ≤ entry.1.length := by
  obtain ⟨length, hlength, hentry⟩ := List.mem_flatMap.mp h
  rw [List.mem_filter, beq_iff_eq] at hentry
  rw [hentry.2]
  simp only [List.mem_cons, List.not_mem_nil, or_false] at hlength
  omega

theorem scanOther_within {c : Char} (h : cursor.peek? = some c) :
    (scanOther c cursor).Within cursor := by
  have hpos := Cursor.left_pos h
  rw [scanOther]
  split
  · next spelling sign hsymbol =>
    have hlength := length_of_mem_symbols (List.mem_of_find?_eq_some hsymbol)
    have hthere := List.find?_some hsymbol
    rw [Cursor.startsWith, beq_iff_eq] at hthere
    have hle := congrArg List.length hthere
    rw [List.length_map, List.length_take] at hle
    show 1 + (cursor.advance spelling.length).left ≤ cursor.left
    rw [Cursor.left_advance, Cursor.left]
    dsimp only at hlength hle
    omega
  · split
    · trivial
    · split
      · show 1 + (cursor.advance 1).left ≤ cursor.left
        rw [Cursor.left_advance]
        omega
      · trivial

theorem scanJoin_within (cursor : Cursor) : (scanJoin cursor).Within cursor := by
  rw [scanJoin]
  split
  · dsimp only
    split
    · trivial
    · rw [Within, Cursor.left_advance, Cursor.left_advance]
      omega
  · trivial

theorem scan_within (cursor : Cursor) : (scan cursor).Within cursor := by
  have hadvance := Cursor.left_advance 1 cursor
  rw [scan]
  split
  · trivial
  · next c hpeek =>
    have hpos := Cursor.left_pos hpeek
    split
    · next hstart =>
      split
      · exact scanLiteral_within _ cursor
      · exact scanWord_within hpeek hstart
    · split
      · next hnumber =>
        have hc : Identifier.isDigit c = true ∨ c = '.' := by
          rw [Bool.or_eq_true, Bool.and_eq_true, beq_iff_eq] at hnumber
          exact hnumber.imp_right And.left
        split
        · next kind next hscan => exact Number.scan_within hpeek hc hscan
        · trivial
      · split
        · exact scanLiteral_within _ cursor
        · split
          · exact Cursor.left_takeWhile_le cursor _
          · split
            · rw [Within]
              omega
            · split
              · rw [Within]
                omega
              · split
                · exact scanJoin_within cursor
                · exact scanOther_within hpeek

end Scanned

/-! ### Indentation -/

theorem Indent.left_readFrom_le {inComment : Bool} {indent : Indent} {offset : Nat}
    {rest : List Glyph} {reading : Reading}
    (h : readFrom inComment indent offset rest = .ok reading) :
    reading.next.left ≤ rest.length := by
  induction rest generalizing inComment indent offset with
  | nil =>
    cases h
    exact Nat.le_refl _
  | cons glyph rest ih =>
    rw [readFrom] at h
    split at h
    · exact Nat.le_succ_of_le (ih h)
    · split at h
      · exact Nat.le_succ_of_le (ih h)
      · split at h
        · exact Nat.le_succ_of_le (ih h)
        · split at h
          · split at h
            · exact Nat.le_succ_of_le (ih h)
            · cases h
          · split at h
            · exact Nat.le_succ_of_le (ih h)
            · split at h
              · exact Nat.le_succ_of_le (ih h)
              · cases h
                exact Nat.le_refl _

/-! ### Whole texts -/

namespace Token

/-- What tokens of these kinds weigh together. -/
def Kind.weightAll : List Kind → Nat
  | [] => 0
  | kind :: rest => kind.weight + weightAll rest

theorem Kind.weightAll_append (kinds kinds' : List Kind) :
    weightAll (kinds ++ kinds') = weightAll kinds + weightAll kinds' := by
  induction kinds with
  | nil => exact (Nat.zero_add _).symm
  | cons kind kinds ih => rw [List.cons_append, weightAll, weightAll, ih, Nat.add_assoc]

theorem Kind.weightAll_reverse (kinds : List Kind) :
    weightAll kinds.reverse = weightAll kinds := by
  induction kinds with
  | nil => rfl
  | cons kind kinds ih =>
    calc weightAll (kind :: kinds).reverse
      _ = weightAll kinds.reverse + weightAll [kind] := by rw [List.reverse_cons, weightAll_append]
      _ = weightAll kinds + kind.weight := by rw [ih, weightAll, weightAll, Nat.add_zero]
      _ = weightAll (kind :: kinds) := Nat.add_comm _ _

/-- What the tokens weigh together. -/
def weightAll (tokens : List Token) : Nat :=
  Kind.weightAll (tokens.map (·.kind))

theorem weightAll_cons (token : Token) (tokens : List Token) :
    weightAll (token :: tokens) = token.kind.weight + weightAll tokens :=
  rfl

theorem weightAll_reverse (tokens : List Token) : weightAll tokens.reverse = weightAll tokens := by
  rw [weightAll, List.map_reverse, Kind.weightAll_reverse, weightAll]

end Token

namespace Scanner

variable {scanner scanner' : Scanner} {kind : Token.Kind} {next : Cursor}

/-- What the tokens so far weigh, with the characters that follow. -/
def load (scanner : Scanner) : Nat :=
  Token.weightAll scanner.tokens + scanner.cursor.left

theorem weightAll_pushEmpty (hkind : kind.weight = 0) (offset count : Nat) (scanner : Scanner) :
    Token.weightAll (scanner.pushEmpty kind offset count).tokens =
      Token.weightAll scanner.tokens := by
  induction count generalizing scanner with
  | zero => rfl
  | succ count ih => rw [pushEmpty, ih, push, Token.weightAll_cons, hkind, Nat.zero_add]

theorem cursor_pushEmpty (offset count : Nat) (scanner : Scanner) :
    (scanner.pushEmpty kind offset count).cursor = scanner.cursor := by
  induction count generalizing scanner with
  | zero => rfl
  | succ count ih =>
    rw [pushEmpty, ih]
    rfl

/-- The beginnings and ends of blocks weigh nothing. -/
theorem load_layOut_le (h : scanner.layOut = .ok scanner') : scanner'.load ≤ scanner.load := by
  rw [layOut] at h
  obtain ⟨reading, hreading, h⟩ := steps_eq_ok.mp h
  have hle : Token.weightAll scanner.tokens + reading.next.left ≤ scanner.load :=
    Nat.add_le_add_left (Indent.left_readFrom_le hreading) _
  dsimp only at h
  split at h
  · cases h
  · cases h
    exact hle
  · cases h
    rw [load, push, Token.weightAll_cons]
    exact Nat.le_trans (Nat.le_of_eq (congrArg (· + _) (Nat.zero_add _))) hle
  · obtain ⟨closed, -, h⟩ := steps_eq_ok.mp h
    cases h
    rw [load, weightAll_pushEmpty rfl, cursor_pushEmpty]
    exact hle

theorem weightAll_finish_le (scanner : Scanner) :
    Token.weightAll scanner.finish.tokens ≤ scanner.load + 1 := by
  rw [finish]
  dsimp only
  split
  · rw [stop, Token.weightAll_reverse, weightAll_pushEmpty rfl]
    split
    · rw [load]
      omega
    · rw [push, Token.weightAll_cons, load]
      show 1 + _ ≤ _
      omega
  · rw [stop, Token.weightAll_reverse, load]
    omega

theorem load_accept_le (hwithin : kind.weight + next.left ≤ scanner.cursor.left)
    (h : scanner.accept kind next = .ok scanner') : scanner'.load ≤ scanner.load := by
  have hle : kind.weight + Token.weightAll scanner.tokens + next.left ≤ scanner.load := by
    rw [load]
    omega
  unfold accept at h
  dsimp only at h
  split at h
  · cases h
    exact hle
  · split at h
    · cases h
    · cases h
      exact hle
  · cases h
    exact hle

theorem load_endLine_le (hwithin : 1 + next.left ≤ scanner.cursor.left) :
    (scanner.endLine next).load ≤ scanner.load := by
  rw [endLine]
  split
  · show 1 + Token.weightAll scanner.tokens + next.left ≤ scanner.load
    rw [load]
    omega
  · show Token.weightAll scanner.tokens + next.left ≤ scanner.load
    rw [load]
    omega

theorem weightAll_stop_le (ending : StreamEnd) :
    Token.weightAll (scanner.stop ending).tokens ≤ scanner.load := by
  rw [stop, Token.weightAll_reverse]
  exact Nat.le_add_right _ _

/-- What a run adds to the tokens weighs no more than the characters that it passes, by induction on
the rounds. -/
theorem weightAll_run_le (rounds : Nat) (scanner : Scanner) :
    Token.weightAll (run rounds scanner).tokens ≤ scanner.load + 1 := by
  induction rounds generalizing scanner with
  | zero => exact weightAll_finish_le scanner
  | succ rounds ih =>
    have hfault : ∀ fault,
        Token.weightAll (scanner.stop (.fault fault)).tokens ≤ scanner.load + 1 :=
      fun fault => Nat.le_succ_of_le (weightAll_stop_le _)
    rw [run]
    split
    · exact hfault _
    · next laidOut hlaidOut =>
      have hle : laidOut.load ≤ scanner.load := by
        split at hlaidOut
        · exact load_layOut_le hlaidOut
        · cases hlaidOut
          exact Nat.le_refl _
      have hrest : ∀ {read : Scanner}, read.load ≤ laidOut.load →
          Token.weightAll (run rounds read).tokens ≤ scanner.load + 1 :=
        fun hread => Nat.le_trans (ih _) (Nat.succ_le_succ (Nat.le_trans hread hle))
      have hwithin := Scanned.scan_within laidOut.cursor
      split
      · exact Nat.le_trans (weightAll_finish_le laidOut) (Nat.succ_le_succ hle)
      · exact hfault _
      · next next hnext =>
        rw [hnext] at hwithin
        exact hrest (Nat.add_le_add_left hwithin _)
      · next next hnext =>
        rw [hnext] at hwithin
        exact hrest (load_endLine_le hwithin)
      · next kind next hnext =>
        rw [hnext] at hwithin
        split
        · next accepted haccepted => exact hrest (load_accept_le hwithin haccepted)
        · exact hfault _

end Scanner

/-- **The tokens of a text weigh no more than its characters**, and the end of a last line. -/
theorem TokenStream.weightAll_ofText_le (text : List Char) :
    Token.weightAll (ofText text).tokens ≤ text.length + 1 := by
  refine Nat.le_trans (Scanner.weightAll_run_le _ _) (Nat.succ_le_succ ?_)
  exact Nat.le_trans (Nat.le_of_eq (Nat.zero_add _)) (Cursor.left_ofText_le text)

/-! ### Words that are keywords in some places -/

/-- A word weighs the same as a keyword and as a name. -/
theorem SoftKeyword.weight_settleToken (lineStart : Bool) (token : Token) (rest : List Token) :
    (settleToken lineStart token rest).kind.weight = token.kind.weight := by
  rw [settleToken]
  split
  · next word hword =>
    split
    · rw [hword]
      rfl
    · rfl
  · rfl

theorem SoftKeyword.weightAll_settleOnto (settled : List Token) (lineStart : Bool)
    (tokens : List Token) : Token.weightAll (settleOnto settled lineStart tokens) =
      Token.weightAll settled + Token.weightAll tokens := by
  induction tokens generalizing settled lineStart with
  | nil => rfl
  | cons token tokens ih =>
    rw [settleOnto, ih, Token.weightAll_cons, Token.weightAll_cons, weight_settleToken]
    omega

theorem TokenStream.weightAll_settleWords (stream : TokenStream) :
    Token.weightAll stream.settleWords.tokens = Token.weightAll stream.tokens := by
  rw [settleWords, Token.weightAll_reverse, SoftKeyword.weightAll_settleOnto]
  exact Nat.zero_add _

theorem TokenStream.weightAll_settleAsNames (stream : TokenStream) :
    Token.weightAll stream.settleAsNames.tokens = Token.weightAll stream.tokens := by
  rw [settleAsNames]
  induction stream.tokens with
  | nil => rfl
  | cons token tokens ih =>
    rw [List.map_cons, Token.weightAll_cons, Token.weightAll_cons, ih,
      SoftKeyword.weight_settleToken]

end SourceOutline
