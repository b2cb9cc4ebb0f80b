import SourceOutline.Proofs.Json.Spelling

/-!
# Reading spelled values

`Json.Denotes` relates a tree to the value that it was written for, whatever the places in it are.
**Main result** (`Document.denotes_ofText`): any spelling of a value, with blanks around it, is read
as a tree that denotes the value, and nothing is left of the text.

Each part of the reader has a lemma of the same form: in front of a text that can follow it, a
spelling is read completely, and what follows is left. The bounds on the rounds are what a text
needs that is as long as the spelling.
-/

namespace SourceOutline.Json

/-! ### Trees and the values they denote -/

mutual

/-- A tree that was read completely and without faults, and its value. -/
inductive Denotes : Tree → Json → Prop
  | null {peek stop : Nat} : Denotes (.leaf peek (.ok .null) stop) .null
  | bool {peek stop : Nat} (value : Bool) :
    Denotes (.leaf peek (.ok (.bool value)) stop) (.bool value)
  | number {peek stop : Nat} (value : Number) :
    Denotes (.leaf peek (.ok (.number value)) stop) (.number value)
  | string {peek stop : Nat} (value : String) :
    Denotes (.leaf peek (.ok (.string value)) stop) (.string value)
  | array {peek stop : Nat} {trees : List Tree} {items : List Json} (h : DenotesItems trees items) :
    Denotes (.array peek trees (.closed stop)) (.array items)
  | object {peek stop : Nat} {trees : List Member} {members : List (String × Json)}
    (h : DenotesMembers trees members) :
    Denotes (.object peek trees none (.closed stop)) (.object members)

/-- Trees and their values. -/
inductive DenotesItems : List Tree → List Json → Prop
  | nil : DenotesItems [] []
  | cons {tree : Tree} {item : Json} {trees : List Tree} {items : List Json} (h : Denotes tree item)
    (hitems : DenotesItems trees items) : DenotesItems (tree :: trees) (item :: items)

/-- Members as they were read and as they are. -/
inductive DenotesMembers : List Member → List (String × Json) → Prop
  | nil : DenotesMembers [] []
  | cons {key : String} {colon : Nat} {tree : Tree} {value : Json} {trees : List Member}
    {members : List (String × Json)} (h : Denotes tree value)
    (hmembers : DenotesMembers trees members) :
    DenotesMembers (.mk (.ok key) colon tree :: trees) ((key, value) :: members)

end

/-! ### Blanks and numbers -/

/-- Blanks are passed over. -/
theorem skipSpace_append {blanks : List Char} (h : AllSpace blanks) (offset : Nat)
    (rest : List Char) :
    skipSpace offset (blanks ++ rest) = skipSpace (offset + blanks.length) rest := by
  induction blanks generalizing offset with
  | nil => rfl
  | cons c blanks ih =>
    have hblanks : AllSpace blanks := fun d hd => h d (List.mem_cons_of_mem c hd)
    calc skipSpace offset (c :: (blanks ++ rest))
      _ = skipSpace (offset + 1) (blanks ++ rest) := by
        rw [skipSpace, if_pos (h c List.mem_cons_self)]
      _ = skipSpace (offset + 1 + blanks.length) rest := ih hblanks _
      _ = skipSpace (offset + (c :: blanks).length) rest := by
        rw [List.length_cons, Nat.add_assoc, Nat.add_comm 1]

/-- Nothing is passed over where no blank is. -/
theorem skipSpace_cons {c : Char} (h : isSpace c = false) (offset : Nat) (rest : List Char) :
    skipSpace offset (c :: rest) = (offset, c :: rest) := by
  rw [skipSpace, if_neg (by simp [h])]

/-- What can follow a value in a text: nothing, a blank, a comma or a closing bracket. -/
def EndsToken (rest : List Char) : Prop :=
  ∀ c, rest.head? = some c → isSpace c = true ∨ c = ',' ∨ c = ']' ∨ c = '}'

theorem endsToken_cons {c : Char} (h : isSpace c = true ∨ c = ',' ∨ c = ']' ∨ c = '}')
    (rest : List Char) : EndsToken (c :: rest) := by
  intro d hd
  rw [List.head?_cons, Option.some_inj] at hd
  exact hd ▸ h

/-- Blanks can follow a value in front of what can. -/
theorem endsToken_append {blanks rest : List Char} (h : AllSpace blanks) (hrest : EndsToken rest) :
    EndsToken (blanks ++ rest) := by
  cases blanks with
  | nil => exact hrest
  | cons c blanks => exact endsToken_cons (.inl (h c List.mem_cons_self)) _

/-- No number goes on with what can follow a value. -/
private theorem EndsToken.not_number {c : Char} {rest : List Char} (h : EndsToken (c :: rest)) :
    isDigit c = false ∧ c ≠ '.' ∧ c ≠ 'e' ∧ c ≠ 'E' := by
  have hspace : isSpace c = true → c = ' ' ∨ c = '\n' ∨ c = '\t' ∨ c = '\r' := by
    simp [isSpace, or_assoc]
  rcases h c rfl with hc | rfl | rfl | rfl
  · rcases hspace hc with rfl | rfl | rfl | rfl <;> decide
  · decide
  · decide
  · decide

/-- The digits of a number are taken off a text. -/
theorem spanDigits_append {digits rest : List Char} (h : ∀ c ∈ digits, isDigit c = true)
    (hrest : EndsToken rest) : spanDigits (digits ++ rest) = (digits, rest) := by
  have hhead : rest.takeWhile isDigit = [] ∧ rest.dropWhile isDigit = rest := by
    cases rest with
    | nil => exact ⟨rfl, rfl⟩
    | cons c rest =>
      have hc : ¬ isDigit c = true := by simp [hrest.not_number.1]
      exact ⟨List.takeWhile_cons_of_neg hc, List.dropWhile_cons_of_neg hc⟩
  rw [spanDigits, List.takeWhile_append_of_pos h, List.dropWhile_append_of_pos h, hhead.1, hhead.2,
    List.append_nil]

theorem isDigit_of_mem_toDigits {n : Nat} {c : Char} (h : c ∈ Nat.toDigits 10 n) :
    isDigit c = true := by
  have hc := Nat.isDigit_of_mem_toDigits (by decide) (by decide) h
  rw [Char.isDigit, Bool.and_eq_true, decide_eq_true_iff, decide_eq_true_iff] at hc
  rw [isDigit, Bool.and_eq_true, decide_eq_true_iff, decide_eq_true_iff]
  exact hc

theorem ofDigits_toDigits (n : Nat) : ofDigits (Nat.toDigits 10 n) = n := by
  have hfold : ofDigits (Nat.toDigits 10 n) = Nat.ofDigitChars 10 (Nat.toDigits 10 n) 0 := by
    rw [Nat.ofDigitChars_eq_foldl, ofDigits]
    simp only [digitValue, Nat.mul_comm]
  rw [hfold, Nat.ofDigitChars_ten_toDigits]

/-- Only zero begins with the digit zero. -/
theorem toDigits_eq (n : Nat) :
    Nat.toDigits 10 n = ['0'] ∨ ∃ c digits, Nat.toDigits 10 n = c :: digits ∧ c ≠ '0' := by
  induction n using Nat.strongRecOn with
  | ind n ih =>
    by_cases hn : n < 10
    · rw [Nat.toDigits_of_lt_base hn]
      have hdigit : ∀ m < 10, Nat.digitChar m = '0' ∨ Nat.digitChar m ≠ '0' ∧ m ≠ 0 := by decide
      rcases hdigit n hn with h | h
      · exact .inl (by rw [h])
      · exact .inr ⟨_, [], rfl, h.1⟩
    · rw [Nat.toDigits_of_base_le (by decide) (by omega)]
      rcases ih (n / 10) (by omega) with h | ⟨c, digits, h, hc⟩
      · -- The front part is not zero.
        have hzero : n / 10 = 0 := by
          rw [← ofDigits_toDigits (n / 10), h]
          rfl
        omega
      · exact .inr ⟨c, digits ++ [(n % 10).digitChar], by rw [h, List.cons_append], hc⟩

/-- Behind its digits a number ends. -/
private theorem readFraction_of_endsToken {rest : List Char} (hrest : EndsToken rest) (peek : Nat)
    (whole : List Char) (offset : Nat) :
    readFraction peek false whole offset rest =
      Numeral.toLeaf ⟨false, whole, none, none, offset⟩ peek rest := by
  cases rest with
  | nil => rfl
  | cons c rest =>
    obtain ⟨-, hpoint, he, hE⟩ := hrest.not_number
    rw [readFraction, readExponent, if_neg (by simp [he, hE])]
    rintro more ⟨⟩
    exact hpoint rfl

/-- **A number is read.** -/
theorem readNumber_toDigits {n : Nat} (h : n ≤ maxWhole) (peek offset : Nat) {rest : List Char}
    (hrest : EndsToken rest) :
    ∃ stop, readNumber peek false offset (Nat.toDigits 10 n ++ rest) =
      (.leaf peek (.ok (.ofNat n)) stop, some (stop, rest)) := by
  have hleaf : ∀ stop, Numeral.toLeaf ⟨false, Nat.toDigits 10 n, none, none, stop⟩ peek rest =
      (.leaf peek (.ok (.ofNat n)) stop, some (stop, rest)) := by
    intro stop
    simp only [Numeral.toLeaf, Numeral.toNumber, ofDigits_toDigits]
    simp [h, Except.map, ofNat]
  have hspan : spanDigits (Nat.toDigits 10 n ++ rest) = (Nat.toDigits 10 n, rest) :=
    spanDigits_append (fun _ hc => isDigit_of_mem_toDigits hc) hrest
  rw [readNumber, hspan]
  rcases toDigits_eq n with hzero | ⟨c, digits, hdigits, hc⟩
  · refine ⟨offset + 1, ?_⟩
    rw [hzero] at hleaf ⊢
    simp only
    rw [readFraction_of_endsToken hrest, hleaf]
  · -- The number does not begin with the zero that stands alone.
    refine ⟨offset + (Nat.toDigits 10 n).length, ?_⟩
    rw [← hleaf, ← readFraction_of_endsToken hrest]
    rw [hdigits]
    split <;> simp_all

/-! ### Strings -/

private theorem hexValue?_eq_some {c : Char} {value : Nat} (h : IsHexDigit c value) :
    hexValue? c = some value := by
  have hall : ∀ v < 16, hexValue? (Nat.digitChar v) = some v ∧
      hexValue? (Nat.digitChar v).toUpper = some v := by decide
  obtain ⟨hlt, rfl | rfl⟩ := h
  · exact (hall value hlt).1
  · exact (hall value hlt).2

private theorem IsHexDigit.utf8Size_eq {c : Char} {value : Nat} (h : IsHexDigit c value) :
    c.utf8Size = 1 := by
  have hall : ∀ v < 16, (Nat.digitChar v).utf8Size = 1 ∧
      (Nat.digitChar v).toUpper.utf8Size = 1 := by decide
  obtain ⟨hlt, rfl | rfl⟩ := h
  · exact (hall value hlt).1
  · exact (hall value hlt).2

theorem readHex_spelled {code : Nat} {digits : List Char} (h : SpellsUnit code digits)
    (offset : Nat) (rest : List Char) :
    readHex offset (digits ++ rest) = .ok code ∧ (digits ++ rest).drop 4 = rest := by
  cases h with
  | @mk a b c d _ _ _ _ ha hb hc hd =>
    refine ⟨?_, rfl⟩
    have hwidth : Text.width (([a, b, c, d] ++ rest).take 4) = 4 := by
      change Text.width [a, b, c, d] = 4
      simp only [Text.width, ha.utf8Size_eq, hb.utf8Size_eq, hc.utf8Size_eq, hd.utf8Size_eq]
    rw [readHex, if_neg (by omega)]
    simp [hexValue?_eq_some ha, hexValue?_eq_some hb, hexValue?_eq_some hc, hexValue?_eq_some hd]

/-- The numbers that characters have. -/
private theorem toNat_valid (c : Char) :
    c.toNat < 0xD800 ∨ 0xDFFF < c.toNat ∧ c.toNat < 0x110000 := by
  have h := c.valid
  simp only [UInt32.isValidChar, Nat.isValidChar] at h
  exact h

/-- The number of a character is not that of a half. -/
private theorem not_half (c : Char) : isTrailing c.toNat = false ∧ isLeading c.toNat = false := by
  have hvalid := toNat_valid c
  simp only [isTrailing, isLeading, Bool.and_eq_false_iff, decide_eq_false_iff_not]
  omega

/-- The second half of a character is read behind the first. -/
private theorem readTrailing_spelled {c : Char} {second : List Char} (hwide : 0x10000 ≤ c.toNat)
    (h : SpellsUnit (0xDC00 + (c.toNat - 0x10000) % 0x400) second) (offset : Nat)
    (rest : List Char) :
    readTrailing (0xD800 + (c.toNat - 0x10000) / 0x400) offset ('\\' :: 'u' :: (second ++ rest)) =
      .char c (offset + 6) rest := by
  obtain ⟨hhex, hdrop⟩ := readHex_spelled h (offset + 2) rest
  have htrailing : isTrailing (0xDC00 + (c.toNat - 0x10000) % 0x400) = true := by
    simp only [isTrailing, Bool.and_eq_true, decide_eq_true_iff]
    omega
  have hcode : (0xD800 + (c.toNat - 0x10000) / 0x400 - 0xD800) * 0x400 +
      (0xDC00 + (c.toNat - 0x10000) % 0x400 - 0xDC00) + 0x10000 = c.toNat := by
    omega
  rw [readTrailing]
  simp only [hhex, htrailing, if_true, hcode, Char.ofNat_toNat, hdrop]

/-- An escape for a character is read behind its backslash. -/
private theorem readEscape_spelled {c : Char} {text : List Char} (h : SpellsChar c ('\\' :: text))
    (offset : Nat) (rest : List Char) :
    ∃ next, readEscape offset (text ++ rest) = .char c next rest := by
  cases h with
  | plain hlow hquote hescape => exact absurd rfl hescape
  | @short letter h =>
    refine ⟨offset + 1, ?_⟩
    simp only [shortEscapes, List.mem_cons, Prod.mk.injEq, List.not_mem_nil, or_false] at h
    rcases h with ⟨rfl, rfl⟩ | ⟨rfl, rfl⟩ | ⟨rfl, rfl⟩ | ⟨rfl, rfl⟩ | ⟨rfl, rfl⟩ | ⟨rfl, rfl⟩ |
      ⟨rfl, rfl⟩ | ⟨rfl, rfl⟩ <;> rfl
  | @unit digits h =>
    obtain ⟨hhex, hdrop⟩ := readHex_spelled h (offset + 1) rest
    obtain ⟨htrailing, hleading⟩ := not_half c
    refine ⟨offset + 5, ?_⟩
    rw [List.cons_append, readEscape, if_pos rfl, hhex]
    simp only [htrailing, hleading, Bool.false_eq_true, if_false, hdrop, Char.ofNat_toNat]
  | @halves first second hwide hfirst hsecond =>
    obtain ⟨hhex, hdrop⟩ := readHex_spelled hfirst (offset + 1) ('\\' :: 'u' :: (second ++ rest))
    have hvalid := toNat_valid c
    have htrailing : isTrailing (0xD800 + (c.toNat - 0x10000) / 0x400) = false := by
      simp only [isTrailing, Bool.and_eq_false_iff, decide_eq_false_iff_not]
      omega
    have hleading : isLeading (0xD800 + (c.toNat - 0x10000) / 0x400) = true := by
      simp only [isLeading, Bool.and_eq_true, decide_eq_true_iff]
      omega
    refine ⟨offset + 5 + 6, ?_⟩
    rw [List.cons_append, List.append_assoc, List.cons_append, List.cons_append, readEscape,
      if_pos rfl, hhex]
    simp only [htrailing, hleading, Bool.false_eq_true, if_false, if_true, hdrop]
    exact readTrailing_spelled hwide hsecond (offset + 5) rest

/-- Every spelling but the plain one is an escape. -/
private theorem SpellsChar.plain_or_escape {c : Char} {text : List Char} (h : SpellsChar c text) :
    (text = [c] ∧ 0x20 ≤ c.toNat ∧ c ≠ '"' ∧ c ≠ '\\') ∨ ∃ escape, text = '\\' :: escape := by
  cases h with
  | plain hlow hquote hescape => exact .inl ⟨rfl, hlow, hquote, hescape⟩
  | short _ => exact .inr ⟨_, rfl⟩
  | unit _ => exact .inr ⟨_, rfl⟩
  | halves _ _ _ => exact .inr ⟨_, rfl⟩

/-- A spelled character is added to what is known of a string. -/
theorem readString_char {c : Char} {text : List Char} (h : SpellsChar c text) (view : StringView)
    (rounds offset : Nat) (rest : List Char) :
    ∃ next, readString view (rounds + 1) offset (text ++ rest) =
      readString { view with chars := c :: view.chars } rounds next rest := by
  rcases h.plain_or_escape with ⟨rfl, hlow, hquote, hescape⟩ | ⟨escape, rfl⟩
  · refine ⟨offset + c.utf8Size, ?_⟩
    rw [List.singleton_append, readString, if_neg hquote, if_neg hescape, if_neg (by omega)]
  · obtain ⟨next, hnext⟩ := readEscape_spelled h (offset + 1) rest
    refine ⟨next, ?_⟩
    rw [List.cons_append, readString, if_neg (by decide), if_pos rfl, hnext]

/-- **A string is read** behind its quote. -/
theorem readString_spelled {chars text : List Char} (h : SpellsChars chars text) (view : StringView)
    {rounds : Nat} (hrounds : text.length < rounds) (offset : Nat) (rest : List Char) :
    ∃ stop, readString view rounds offset (text ++ '"' :: rest) =
      .ok ({ view with chars := chars.reverse ++ view.chars }.value, stop, rest) := by
  induction h generalizing view rounds offset with
  | nil =>
    obtain ⟨rounds, rfl⟩ := Nat.exists_eq_succ_of_ne_zero (Nat.ne_zero_of_lt hrounds)
    exact ⟨offset + 1, rfl⟩
  | @cons c text chars more hc _ ih =>
    obtain ⟨rounds, rfl⟩ := Nat.exists_eq_succ_of_ne_zero (Nat.ne_zero_of_lt hrounds)
    obtain ⟨next, hnext⟩ := readString_char hc view rounds offset (more ++ '"' :: rest)
    -- No spelling of a character is empty, so a round is left for each of those behind it.
    have hlength : 0 < text.length := by
      cases hc <;> exact Nat.succ_pos _
    have hmore : more.length < rounds := by
      rw [List.length_append] at hrounds
      omega
    obtain ⟨stop, hstop⟩ := ih { view with chars := c :: view.chars } hmore next
    refine ⟨stop, ?_⟩
    rw [List.append_assoc, hnext, hstop, List.reverse_cons, List.append_assoc,
      List.singleton_append]

/-- A string in a text that goes on is read, with as many rounds as the text has characters. -/
private theorem readString_of_spellsString {s : String} {text : List Char} (h : SpellsString s text)
    (offset : Nat) (rest : List Char) :
    ∃ inner stop, text ++ rest = '"' :: inner ∧
      readString {} (inner.length + 1) offset inner = .ok (.ok s, stop, rest) := by
  obtain ⟨hchars⟩ := h
  rename_i text
  have hlength : text.length < (text ++ '"' :: rest).length + 1 := by
    rw [List.length_append]
    omega
  obtain ⟨stop, hstop⟩ := readString_spelled hchars {} hlength offset rest
  refine ⟨text ++ '"' :: rest, stop, ?_, ?_⟩
  · rw [List.cons_append, List.append_assoc, List.singleton_append]
  · rw [hstop, StringView.value, List.append_nil, List.reverse_reverse, String.ofList_toList]

/-! ### Values -/

/-- A digit is no character that can follow a value. -/
private theorem not_endsToken_of_isDigit {c : Char} (h : isDigit c = true) :
    isSpace c = false ∧ c ≠ ']' := by
  have hends : ¬ (isSpace c = true ∨ c = ',' ∨ c = ']' ∨ c = '}') := by
    intro hc
    have hdigit := (endsToken_cons hc []).not_number.1
    rw [h] at hdigit
    exact Bool.false_ne_true hdigit.symm
  rw [not_or, not_or, not_or, Bool.not_eq_true] at hends
  exact ⟨hends.1, hends.2.2.1⟩

/-- A number begins with a digit. -/
private theorem exists_toDigits_cons (n : Nat) :
    ∃ c digits, Nat.toDigits 10 n = c :: digits ∧ isDigit c = true := by
  cases hdigits : Nat.toDigits 10 n with
  | nil => exact absurd hdigits Nat.toDigits_ne_nil
  | cons c digits =>
    exact ⟨c, digits, rfl, isDigit_of_mem_toDigits (hdigits ▸ List.mem_cons_self)⟩

/-- A value begins with a character that is no blank and ends nothing. -/
private theorem Spells.exists_cons {json : Json} {text : List Char} (h : Spells json text) :
    ∃ c rest, text = c :: rest ∧ isSpace c = false ∧ c ≠ ']' := by
  cases h with
  | @natural n h =>
    obtain ⟨c, digits, hdigits, hc⟩ := exists_toDigits_cons n
    exact ⟨c, digits, hdigits, not_endsToken_of_isDigit hc⟩
  | string h =>
    cases h
    exact ⟨'"', _, rfl, rfl, by decide⟩
  | _ => exact ⟨_, _, rfl, rfl, by decide⟩

/-- Items begin like the first of them. -/
private theorem SpellsItems.exists_cons {items : List Json} {text : List Char}
    (h : SpellsItems items text) : ∃ c rest, text = c :: rest ∧ isSpace c = false ∧ c ≠ ']' := by
  cases h with
  | last h _ | cons h _ _ _ =>
    obtain ⟨c, rest, rfl, hc⟩ := h.exists_cons
    exact ⟨c, _, rfl, hc⟩

/-- Members begin with the quote of a key. -/
private theorem SpellsMembers.exists_cons {members : List (String × Json)} {text : List Char}
    (h : SpellsMembers members text) : ∃ rest, text = '"' :: rest := by
  cases h with
  | last h _ | cons h _ _ _ =>
    obtain ⟨⟨_⟩, _, _, _⟩ := h
    exact ⟨_, rfl⟩

/-- Blanks in front of a value make no difference to its reading but for its place. -/
private theorem readTree_append {blanks : List Char} (h : AllSpace blanks) (rounds offset : Nat)
    (text : List Char) :
    readTree (rounds + 1) offset (blanks ++ text) =
      readTree (rounds + 1) (offset + blanks.length) text := by
  rw [readTree, readTree, skipSpace_append h]

/-- The rest of a word is read. -/
private theorem readWord_append (peek : Nat) (value : Json) (offset : Nat)
    (word rest : List Char) :
    ∃ stop, readWord peek value offset word (word ++ rest) =
      (.leaf peek (.ok value) stop, some (stop, rest)) := by
  induction word generalizing offset with
  | nil => exact ⟨offset, rfl⟩
  | cons c word ih =>
    obtain ⟨stop, hread⟩ := ih (offset + 1)
    exact ⟨stop, by rw [List.cons_append, readWord, if_pos rfl, hread]⟩

/-- A value that is a word is read. -/
private theorem readTree_word {c : Char} {value : Json} {word : List Char}
    (h : (c, value, word) ∈ [('n', Json.null, "ull".toList), ('t', .bool true, "rue".toList),
      ('f', .bool false, "alse".toList)]) (rounds offset : Nat) (rest : List Char) :
    ∃ stop, readTree (rounds + 1) offset (c :: (word ++ rest)) =
      (.leaf (offset + 1) (.ok value) stop, some (stop, rest)) := by
  obtain ⟨stop, hread⟩ := readWord_append (offset + 1) value (offset + 1) word rest
  refine ⟨stop, ?_⟩
  simp only [List.mem_cons, Prod.mk.injEq, List.not_mem_nil, or_false] at h
  rw [← hread, readTree]
  rcases h with ⟨rfl, rfl, rfl⟩ | ⟨rfl, rfl, rfl⟩ | ⟨rfl, rfl, rfl⟩ <;>
    · rw [skipSpace_cons rfl]
      rfl

/-- A value in quotes is read as a string. -/
private theorem readTree_string {s : String} {text : List Char} (h : SpellsString s text)
    (rounds offset : Nat) (rest : List Char) :
    ∃ peek stop, readTree (rounds + 1) offset (text ++ rest) =
      (.leaf peek (.ok (.string s)) stop, some (stop, rest)) := by
  obtain ⟨inner, stop, htext, hread⟩ := readString_of_spellsString h (offset + 1) rest
  refine ⟨offset + 1, stop, ?_⟩
  rw [htext, readTree, skipSpace_cons (by decide)]
  simp only [hread]
  rfl

/-- A value that begins with a digit is read as a number. -/
private theorem readTree_toDigits {n : Nat} (h : n ≤ maxWhole) (rounds offset : Nat)
    {rest : List Char} (hrest : EndsToken rest) :
    ∃ peek stop, readTree (rounds + 1) offset (Nat.toDigits 10 n ++ rest) =
      (.leaf peek (.ok (.ofNat n)) stop, some (stop, rest)) := by
  obtain ⟨c, digits, hdigits, hc⟩ := exists_toDigits_cons n
  obtain ⟨stop, hread⟩ := readNumber_toDigits h (offset + 1) offset hrest
  refine ⟨offset + 1, stop, ?_⟩
  rw [hdigits, List.cons_append] at hread
  -- Words and the sign are looked for first, and none of them begins with a digit.
  have hne : ∀ d, isDigit d = false → c ≠ d := by
    rintro d hd rfl
    rw [hc] at hd
    exact Bool.false_ne_true hd.symm
  rw [hdigits, List.cons_append, readTree, skipSpace_cons (not_endsToken_of_isDigit hc).1]
  dsimp only
  rw [if_neg (hne 'n' rfl), if_neg (hne 't' rfl), if_neg (hne 'f' rfl), if_neg (hne '-' rfl),
    if_pos hc, hread]

/-- Behind the last item an array ends. -/
private theorem readItems_close {behind : List Char} (h : AllSpace behind) (rounds : Nat)
    (items : List Tree) (offset : Nat) (rest : List Char) :
    ∃ stop, readItems (rounds + 1) items offset (behind ++ ']' :: rest) =
      (items.reverse, .closed stop, some (stop, rest)) := by
  refine ⟨offset + behind.length + 1, ?_⟩
  rw [readItems, skipSpace_append h, skipSpace_cons (by decide)]
  rfl

/-- Behind an opening bracket the first item is read. -/
private theorem readItems_open {blanks text : List Char} {items : List Json} (h : AllSpace blanks)
    (hitems : SpellsItems items text) (rounds offset : Nat) (rest : List Char) :
    ∃ next, readItems (rounds + 1) [] offset (blanks ++ (text ++ ']' :: rest)) =
      readItem rounds [] next (text ++ ']' :: rest) := by
  obtain ⟨c, more, rfl, hc, hclose⟩ := hitems.exists_cons
  refine ⟨offset + blanks.length, ?_⟩
  rw [readItems, skipSpace_append h, List.cons_append, skipSpace_cons hc]
  dsimp only
  rw [if_neg hclose]
  rfl

/-- Behind a comma the next item is read. -/
private theorem readItems_comma {behind blanks text : List Char} {items : List Json}
    (hbehind : AllSpace behind) (h : AllSpace blanks) (hitems : SpellsItems items text)
    (rounds : Nat) (tree : Tree) (read : List Tree) (offset : Nat) (rest : List Char) :
    ∃ next, readItems (rounds + 1) (tree :: read) offset
        (behind ++ ',' :: (blanks ++ (text ++ ']' :: rest))) =
      readItem rounds (tree :: read) next (text ++ ']' :: rest) := by
  obtain ⟨c, more, rfl, hc, hclose⟩ := hitems.exists_cons
  refine ⟨offset + behind.length + 1 + blanks.length, ?_⟩
  rw [readItems, skipSpace_append hbehind, skipSpace_cons (by decide)]
  dsimp only
  rw [if_neg (by decide), if_neg (by simp), if_pos rfl, skipSpace_append h, List.cons_append,
    skipSpace_cons hc]
  -- A bracket right behind a comma would be a fault, but no item begins with one.
  split
  · next heq => exact absurd (List.cons.inj (Prod.mk.inj heq).2).1 hclose
  · next heq =>
    obtain ⟨rfl, rfl⟩ := Prod.mk.inj heq
    rfl

/-- Behind the last member an object ends. -/
private theorem readMembers_close {behind : List Char} (h : AllSpace behind) (rounds : Nat)
    (members : List Member) (offset : Nat) (rest : List Char) :
    ∃ stop, readMembers (rounds + 1) members offset (behind ++ '}' :: rest) =
      (members.reverse, none, .closed stop, some (stop, rest)) := by
  refine ⟨offset + behind.length + 1, ?_⟩
  rw [readMembers, skipSpace_append h, skipSpace_cons (by decide)]
  rfl

/-- Behind an opening bracket the first member is read. -/
private theorem readMembers_open {blanks text : List Char} {members : List (String × Json)}
    (h : AllSpace blanks) (hmembers : SpellsMembers members text) (rounds offset : Nat)
    (rest : List Char) :
    ∃ next, readMembers (rounds + 1) [] offset (blanks ++ (text ++ '}' :: rest)) =
      readMember rounds [] next (text ++ '}' :: rest) := by
  obtain ⟨more, rfl⟩ := hmembers.exists_cons
  refine ⟨offset + blanks.length, ?_⟩
  rw [readMembers, skipSpace_append h, List.cons_append, skipSpace_cons (by decide)]
  rfl

/-- Behind a comma the next member is read. -/
private theorem readMembers_comma {behind blanks text : List Char} {members : List (String × Json)}
    (hbehind : AllSpace behind) (h : AllSpace blanks) (hmembers : SpellsMembers members text)
    (rounds : Nat) (tree : Member) (read : List Member) (offset : Nat) (rest : List Char) :
    ∃ next, readMembers (rounds + 1) (tree :: read) offset
        (behind ++ ',' :: (blanks ++ (text ++ '}' :: rest))) =
      readMember rounds (tree :: read) next (text ++ '}' :: rest) := by
  obtain ⟨more, rfl⟩ := hmembers.exists_cons
  refine ⟨offset + behind.length + 1 + blanks.length, ?_⟩
  rw [readMembers, skipSpace_append hbehind, skipSpace_cons (by decide)]
  dsimp only
  rw [if_neg (by decide), if_neg (by simp), if_pos rfl, skipSpace_append h, List.cons_append,
    skipSpace_cons (by decide)]
  rfl

/-- Behind a key and a colon the value is read, and then the members behind it. -/
private theorem readMember_key {key : String} {name behind blanks : List Char}
    (hkey : SpellsString key name) (hbehind : AllSpace behind) (h : AllSpace blanks) (rounds : Nat)
    (members : List Member) (offset : Nat) (text : List Char) :
    ∃ colon next, ∀ tree stop rest,
      readTree (rounds + 1) next text = (tree, some (stop, rest)) →
        readMember (rounds + 2) members offset (name ++ (behind ++ ':' :: (blanks ++ text))) =
          readMembers (rounds + 1) (.mk (.ok key) colon tree :: members) stop rest := by
  obtain ⟨inner, stop, htext, hread⟩ :=
    readString_of_spellsString hkey (offset + 1) (behind ++ ':' :: (blanks ++ text))
  refine ⟨stop + behind.length, stop + behind.length + 1 + blanks.length, ?_⟩
  intro tree next rest hvalue
  rw [htext, readMember]
  simp only [hread, skipSpace_append hbehind]
  rw [skipSpace_cons (by decide)]
  simp only [readTree_append h, hvalue]

/-- An array is what is read behind its bracket. -/
private theorem readTree_bracket {rounds offset stop : Nat} {text rest : List Char}
    {trees : List Tree}
    (h : readItems rounds [] (offset + 1) text = (trees, .closed stop, some (stop, rest))) :
    readTree (rounds + 1) offset ('[' :: text) =
      (.array (offset + 1) trees (.closed stop), some (stop, rest)) := by
  rw [readTree, skipSpace_cons (by decide)]
  simp only [h]
  rfl

/-- An object is what is read behind its bracket. -/
private theorem readTree_brace {rounds offset stop : Nat} {text rest : List Char}
    {trees : List Member}
    (h : readMembers rounds [] (offset + 1) text = (trees, none, .closed stop, some (stop, rest))) :
    readTree (rounds + 1) offset ('{' :: text) =
      (.object (offset + 1) trees none (.closed stop), some (stop, rest)) := by
  rw [readTree, skipSpace_cons (by decide)]
  simp only [h]
  rfl

mutual

/-- **A spelled value is read**, in front of what can follow it. -/
theorem readTree_spelled : ∀ {json : Json} {text : List Char}, Spells json text →
    ∀ (rounds offset : Nat) {rest : List Char}, 3 * text.length ≤ rounds + 1 → EndsToken rest →
      ∃ tree next, readTree (rounds + 1) offset (text ++ rest) = (tree, some (next, rest)) ∧
        Denotes tree json
  | _, _, .null, rounds, offset, rest, _, _ => by
    obtain ⟨stop, hread⟩ := readTree_word (.head _) rounds offset rest
    exact ⟨_, _, hread, .null⟩
  | _, _, .true_, rounds, offset, rest, _, _ => by
    obtain ⟨stop, hread⟩ := readTree_word (.tail _ (.head _)) rounds offset rest
    exact ⟨_, _, hread, .bool true⟩
  | _, _, .false_, rounds, offset, rest, _, _ => by
    obtain ⟨stop, hread⟩ := readTree_word (.tail _ (.tail _ (.head _))) rounds offset rest
    exact ⟨_, _, hread, .bool false⟩
  | _, _, .natural h, rounds, offset, rest, _, hrest => by
    obtain ⟨peek, stop, hread⟩ := readTree_toDigits h rounds offset hrest
    exact ⟨_, _, hread, .number _⟩
  | _, _, .string h, rounds, offset, rest, _, _ => by
    obtain ⟨peek, stop, hread⟩ := readTree_string h rounds offset rest
    exact ⟨_, _, hread, .string _⟩
  | _, _, .emptyArray hblanks, rounds, offset, rest, hrounds, _ => by
    simp only [List.length_cons, List.length_append, List.length_nil] at hrounds
    obtain ⟨rounds, rfl⟩ : ∃ n, rounds = n + 1 := ⟨rounds - 1, by omega⟩
    obtain ⟨stop, hread⟩ := readItems_close hblanks rounds [] (offset + 1) rest
    rw [List.cons_append, List.append_assoc, List.singleton_append]
    exact ⟨_, _, readTree_bracket hread, .array .nil⟩
  | _, _, .array hblanks h, rounds, offset, rest, hrounds, _ => by
    simp only [List.length_cons, List.length_append, List.length_nil] at hrounds
    -- The bracket, the first item and the value in it take a round each.
    obtain ⟨rounds, rfl⟩ : ∃ n, rounds = n + 3 := ⟨rounds - 3, by omega⟩
    obtain ⟨next, hopen⟩ := readItems_open hblanks h (rounds + 2) (offset + 1) rest
    obtain ⟨trees, stop, hread, htrees⟩ := readItem_spelled h rounds [] next rest (by omega)
    rw [List.cons_append, List.append_assoc, List.append_assoc, List.singleton_append]
    exact ⟨_, _, readTree_bracket (hopen.trans hread), .array htrees⟩
  | _, _, .emptyObject hblanks, rounds, offset, rest, hrounds, _ => by
    simp only [List.length_cons, List.length_append, List.length_nil] at hrounds
    obtain ⟨rounds, rfl⟩ : ∃ n, rounds = n + 1 := ⟨rounds - 1, by omega⟩
    obtain ⟨stop, hread⟩ := readMembers_close hblanks rounds [] (offset + 1) rest
    rw [List.cons_append, List.append_assoc, List.singleton_append]
    exact ⟨_, _, readTree_brace hread, .object .nil⟩
  | _, _, .object hblanks h, rounds, offset, rest, hrounds, _ => by
    simp only [List.length_cons, List.length_append, List.length_nil] at hrounds
    obtain ⟨rounds, rfl⟩ : ∃ n, rounds = n + 3 := ⟨rounds - 3, by omega⟩
    obtain ⟨next, hopen⟩ := readMembers_open hblanks h (rounds + 2) (offset + 1) rest
    obtain ⟨trees, stop, hread, htrees⟩ := readMember_spelled h rounds [] next rest (by omega)
    rw [List.cons_append, List.append_assoc, List.append_assoc, List.singleton_append]
    exact ⟨_, _, readTree_brace (hopen.trans hread), .object htrees⟩

/-- Spelled items are read, up to the end of the array. -/
theorem readItem_spelled : ∀ {items : List Json} {text : List Char}, SpellsItems items text →
    ∀ (rounds : Nat) (read : List Tree) (offset : Nat) (rest : List Char),
      3 * text.length ≤ rounds →
      ∃ trees stop, readItem (rounds + 2) read offset (text ++ ']' :: rest) =
        (read.reverse ++ trees, .closed stop, some (stop, rest)) ∧ DenotesItems trees items
  | _, _, .last h hbehind, rounds, read, offset, rest, hrounds => by
    rw [List.length_append] at hrounds
    obtain ⟨tree, next, hread, htree⟩ := readTree_spelled h rounds offset (by omega)
      (endsToken_append hbehind (endsToken_cons (.inr (.inr (.inl rfl))) rest))
    obtain ⟨stop, hclose⟩ := readItems_close hbehind rounds (tree :: read) next rest
    refine ⟨[tree], stop, ?_, .cons htree .nil⟩
    rw [List.append_assoc, readItem, hread]
    simp only [hclose, List.reverse_cons]
  | _, _, .cons h hbehind hblanks hitems, rounds, read, offset, rest, hrounds => by
    simp only [List.length_append, List.length_cons] at hrounds
    -- The comma takes a round that is left over from the item in front of it.
    obtain ⟨rounds, rfl⟩ : ∃ n, rounds = n + 2 := ⟨rounds - 2, by omega⟩
    obtain ⟨tree, next, hread, htree⟩ := readTree_spelled h (rounds + 2) offset (by omega)
      (endsToken_append hbehind (endsToken_cons (.inr (.inl rfl)) _))
    obtain ⟨next, hcomma⟩ := readItems_comma hbehind hblanks hitems (rounds + 2) tree read next rest
    obtain ⟨trees, stop, hmore, htrees⟩ :=
      readItem_spelled hitems rounds (tree :: read) next rest (by omega)
    refine ⟨tree :: trees, stop, ?_, .cons htree htrees⟩
    simp only [List.append_assoc, List.cons_append]
    rw [readItem, hread]
    simp only [hcomma, hmore, List.reverse_cons, List.append_assoc, List.singleton_append]

/-- Spelled members are read, up to the end of the object. -/
theorem readMember_spelled : ∀ {members : List (String × Json)} {text : List Char},
    SpellsMembers members text →
    ∀ (rounds : Nat) (read : List Member) (offset : Nat) (rest : List Char),
      3 * text.length ≤ rounds →
      ∃ trees stop, readMember (rounds + 2) read offset (text ++ '}' :: rest) =
        (read.reverse ++ trees, none, .closed stop, some (stop, rest)) ∧
          DenotesMembers trees members
  | _, _, .last (.mk hkey hcolon hblanks h) hbehind, rounds, read, offset, rest, hrounds => by
    simp only [List.length_append, List.length_cons] at hrounds
    simp only [List.append_assoc, List.cons_append]
    obtain ⟨colon, next, hmember⟩ := readMember_key hkey hcolon hblanks rounds read offset _
    obtain ⟨tree, stop, hread, htree⟩ := readTree_spelled h rounds next (by omega)
      (endsToken_append hbehind (endsToken_cons (.inr (.inr (.inr rfl))) rest))
    obtain ⟨stop, hclose⟩ :=
      readMembers_close hbehind rounds (.mk (.ok _) colon tree :: read) stop rest
    refine ⟨[.mk (.ok _) colon tree], stop, ?_, .cons htree .nil⟩
    rw [hmember _ _ _ hread, hclose, List.reverse_cons]
  | _, _, .cons (.mk hkey hcolon hblanks h) hbehind hmore hmembers, rounds, read, offset, rest,
      hrounds => by
    simp only [List.length_append, List.length_cons] at hrounds
    simp only [List.append_assoc, List.cons_append]
    obtain ⟨rounds, rfl⟩ : ∃ n, rounds = n + 2 := ⟨rounds - 2, by omega⟩
    obtain ⟨colon, next, hmember⟩ := readMember_key hkey hcolon hblanks (rounds + 2) read offset _
    obtain ⟨tree, stop, hread, htree⟩ := readTree_spelled h (rounds + 2) next (by omega)
      (endsToken_append hbehind (endsToken_cons (.inr (.inl rfl)) _))
    obtain ⟨next, hcomma⟩ := readMembers_comma hbehind hmore hmembers (rounds + 2)
      (.mk (.ok _) colon tree) read stop rest
    obtain ⟨trees, stop, hread', htrees⟩ :=
      readMember_spelled hmembers rounds (.mk (.ok _) colon tree :: read) next rest (by omega)
    refine ⟨.mk (.ok _) colon tree :: trees, stop, ?_, .cons htree htrees⟩
    rw [hmember _ _ _ hread, hcomma, hread', List.reverse_cons, List.append_assoc,
      List.singleton_append]

end

/-- **Every spelling of a value is read as a tree that denotes it**, and nothing is left. -/
theorem Document.denotes_ofText {json : Json} {text : List Char} (h : SpellsDocument json text) :
    Denotes (Document.ofText text).root json ∧ (Document.ofText text).trailing = none := by
  obtain ⟨blanks, spelled, behind, rfl, hblanks, hbehind, hspelled⟩ := h
  have hends : EndsToken behind := by
    have hnil : EndsToken [] := fun c hc => absurd hc (by simp)
    rw [← List.append_nil behind]
    exact endsToken_append hbehind hnil
  have hrounds : 3 * spelled.length ≤ 3 * (blanks ++ (spelled ++ behind)).length + 2 + 1 := by
    simp only [List.length_append]
    omega
  obtain ⟨tree, next, hread, htree⟩ := readTree_spelled hspelled _ (0 + blanks.length) hrounds hends
  have hspace : skipSpace next behind = (next + behind.length, []) := by
    have hskip := skipSpace_append hbehind next []
    rwa [List.append_nil] at hskip
  have hdocument : Document.ofText (blanks ++ (spelled ++ behind)) = ⟨tree, none⟩ := by
    rw [Document.ofText, readTree_append hblanks, hread]
    simp only [hspace]
  rw [hdocument]
  exact ⟨htree, rfl⟩

end SourceOutline.Json
