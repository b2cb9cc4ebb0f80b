import SourceOutline.Json.Text
import SourceOutline.Json.Tree

/-!
# The spellings of JSON values

`Json.Spells` relates a value to the texts that JSON has for it: blanks may stand between the parts
of a text, and a character of a string may be written as it is, by a short escape, or by its number
in base sixteen, in two halves where it is beyond U+FFFF. Numbers are natural and of 64 bits.

A value is `Json.Regular` if its numbers are of this kind, no object in it gives two values to a
key, and it is nested no deeper than a bound. **Main results**: every layout of a regular value is
one of its spellings (`spells_compact`, `spells_pretty`).
-/

namespace SourceOutline.Json

/-! ### Spellings -/

/-- Text that is made of blanks. -/
def AllSpace (text : List Char) : Prop :=
  ∀ c ∈ text, isSpace c = true

/-- The characters with a short escape, and the letter of it. -/
def shortEscapes : List (Char × Char) :=
  [('"', '"'), ('\\', '\\'), ('/', '/'), ('\x08', 'b'), ('\x0c', 'f'), ('\n', 'n'), ('\r', 'r'),
    ('\t', 't')]

/-- The digits in base sixteen, in lower or in upper case. -/
def IsHexDigit (c : Char) (value : Nat) : Prop :=
  value < 16 ∧ (c = Nat.digitChar value ∨ c = (Nat.digitChar value).toUpper)

/-- Four digits in base sixteen. -/
inductive SpellsUnit : Nat → List Char → Prop
  | mk {a b c d : Char} {w x y z : Nat} (ha : IsHexDigit a w) (hb : IsHexDigit b x)
    (hc : IsHexDigit c y) (hd : IsHexDigit d z) :
    SpellsUnit (((w * 16 + x) * 16 + y) * 16 + z) [a, b, c, d]

/-- The ways to write a character in a string. -/
inductive SpellsChar : Char → List Char → Prop
  /-- As it is, unless it ends the string, begins an escape or is below U+0020. -/
  | plain {c : Char} (hlow : 0x20 ≤ c.toNat) (hquote : c ≠ '"') (hescape : c ≠ '\\') :
    SpellsChar c [c]
  | short {c letter : Char} (h : (c, letter) ∈ shortEscapes) : SpellsChar c ['\\', letter]
  /-- By its number. -/
  | unit {c : Char} {digits : List Char} (h : SpellsUnit c.toNat digits) :
    SpellsChar c ('\\' :: 'u' :: digits)
  /-- By the numbers of its two halves. -/
  | halves {c : Char} {first second : List Char} (hwide : 0x10000 ≤ c.toNat)
    (hfirst : SpellsUnit (0xD800 + (c.toNat - 0x10000) / 0x400) first)
    (hsecond : SpellsUnit (0xDC00 + (c.toNat - 0x10000) % 0x400) second) :
    SpellsChar c ('\\' :: 'u' :: (first ++ '\\' :: 'u' :: second))

/-- The ways to write the characters of a string, one behind the other. -/
inductive SpellsChars : List Char → List Char → Prop
  | nil : SpellsChars [] []
  | cons {c : Char} {text : List Char} {chars more : List Char} (hc : SpellsChar c text)
    (hchars : SpellsChars chars more) : SpellsChars (c :: chars) (text ++ more)

/-- The ways to write a string. -/
inductive SpellsString : String → List Char → Prop
  | mk {s : String} {text : List Char} (h : SpellsChars s.toList text) :
    SpellsString s ('"' :: (text ++ ['"']))

mutual

/-- The ways to write a value, without blanks around it. -/
inductive Spells : Json → List Char → Prop
  | null : Spells .null "null".toList
  | true_ : Spells (.bool true) "true".toList
  | false_ : Spells (.bool false) "false".toList
  | natural {n : Nat} (h : n ≤ maxWhole) : Spells (.ofNat n) (Nat.toDigits 10 n)
  | string {s : String} {text : List Char} (h : SpellsString s text) : Spells (.string s) text
  | emptyArray {blanks : List Char} (hblanks : AllSpace blanks) :
    Spells (.array []) ('[' :: (blanks ++ [']']))
  | array {items : List Json} {blanks text : List Char} (hblanks : AllSpace blanks)
    (h : SpellsItems items text) : Spells (.array items) ('[' :: (blanks ++ (text ++ [']'])))
  | emptyObject {blanks : List Char} (hblanks : AllSpace blanks) :
    Spells (.object []) ('{' :: (blanks ++ ['}']))
  | object {members : List (String × Json)} {blanks text : List Char} (hblanks : AllSpace blanks)
    (h : SpellsMembers members text) : Spells (.object members) ('{' :: (blanks ++ (text ++ ['}'])))

/-- The ways to write items with commas between them. -/
inductive SpellsItems : List Json → List Char → Prop
  | last {item : Json} {text behind : List Char} (h : Spells item text)
    (hbehind : AllSpace behind) : SpellsItems [item] (text ++ behind)
  | cons {item : Json} {text behind blanks : List Char} {items : List Json} {more : List Char}
    (h : Spells item text) (hbehind : AllSpace behind) (hblanks : AllSpace blanks)
    (hitems : SpellsItems items more) :
    SpellsItems (item :: items) (text ++ (behind ++ ',' :: (blanks ++ more)))

/-- The ways to write members with commas between them. -/
inductive SpellsMembers : List (String × Json) → List Char → Prop
  | last {member : String × Json} {text behind : List Char} (h : SpellsMember member text)
    (hbehind : AllSpace behind) : SpellsMembers [member] (text ++ behind)
  | cons {member : String × Json} {text behind blanks : List Char}
    {members : List (String × Json)} {more : List Char} (h : SpellsMember member text)
    (hbehind : AllSpace behind) (hblanks : AllSpace blanks)
    (hmembers : SpellsMembers members more) :
    SpellsMembers (member :: members) (text ++ (behind ++ ',' :: (blanks ++ more)))

/-- The ways to write a key, a colon and a value. -/
inductive SpellsMember : String × Json → List Char → Prop
  | mk {key : String} {name behind blanks : List Char} {value : Json} {text : List Char}
    (hkey : SpellsString key name) (hbehind : AllSpace behind) (hblanks : AllSpace blanks)
    (h : Spells value text) :
    SpellsMember (key, value) (name ++ (behind ++ ':' :: (blanks ++ text)))

end

/-- The ways to write a value with blanks around it. -/
def SpellsDocument (json : Json) (document : List Char) : Prop :=
  ∃ blanks text behind, document = blanks ++ (text ++ behind) ∧ AllSpace blanks ∧ AllSpace behind ∧
    Spells json text

/-- Blanks may follow a text that spells a value. -/
theorem SpellsDocument.append_blanks {json : Json} {document blanks : List Char}
    (h : SpellsDocument json document) (hblanks : AllSpace blanks) :
    SpellsDocument json (document ++ blanks) := by
  obtain ⟨before, text, behind, rfl, hbefore, hbehind, hspells⟩ := h
  exact ⟨before, text, behind ++ blanks, by simp only [List.append_assoc], hbefore,
    List.forall_mem_append.mpr ⟨hbehind, hblanks⟩, hspells⟩

/-! ### Regular values -/

/-- Values of natural numbers of 64 bits, strings and what is made of them, in which no object gives
two values to a key, with at most so many arrays and objects one in the other. -/
inductive Regular : (levels : Nat) → Json → Prop
  | null {levels : Nat} : Regular levels .null
  | bool {levels : Nat} (value : Bool) : Regular levels (.bool value)
  | natural {levels n : Nat} (h : n ≤ maxWhole) : Regular levels (.ofNat n)
  | string {levels : Nat} (value : String) : Regular levels (.string value)
  | array {levels : Nat} {items : List Json} (h : ∀ item ∈ items, Regular levels item) :
    Regular (levels + 1) (.array items)
  | object {levels : Nat} {members : List (String × Json)} (hkeys : (members.map (·.1)).Nodup)
    (h : ∀ member ∈ members, Regular levels member.2) : Regular (levels + 1) (.object members)

namespace Regular

variable {levels : Nat}

/-- One member more. -/
theorem members_cons {key : String} {value : Json} {members : List (String × Json)}
    (h : Regular levels value) (hmembers : ∀ member ∈ members, Regular levels member.2) :
    ∀ member ∈ (key, value) :: members, Regular levels member.2 :=
  List.forall_mem_cons.mpr ⟨h, hmembers⟩

theorem members_nil : ∀ member ∈ ([] : List (String × Json)), Regular levels member.2 :=
  fun _ hmember => absurd hmember List.not_mem_nil

end Regular

/-! ### Written strings -/

/-- A character below U+0020 is written by its number. -/
private theorem spellsUnit_control {c : Char} (h : c.toNat < 0x20) :
    SpellsUnit c.toNat ['0', '0', hexDigit (c.toNat / 16), hexDigit c.toNat] := by
  have hzero : IsHexDigit '0' 0 := ⟨by decide, .inl rfl⟩
  have hhigh : IsHexDigit (hexDigit (c.toNat / 16)) (c.toNat / 16) :=
    ⟨by omega, .inl (by rw [hexDigit, Nat.mod_eq_of_lt (by omega)])⟩
  have hlow : IsHexDigit (hexDigit c.toNat) (c.toNat % 16) := ⟨by omega, .inl rfl⟩
  have hunit := SpellsUnit.mk hzero hzero hhigh hlow
  rwa [show ((0 * 16 + 0) * 16 + c.toNat / 16) * 16 + c.toNat % 16 = c.toNat by omega] at hunit

theorem spellsChar_escapeChar (c : Char) : SpellsChar c (escapeChar c) := by
  unfold escapeChar
  -- The seven characters with a short escape come first.
  iterate 7
    split
    · next h =>
      subst h
      exact .short (by decide)
  split
  · next h => exact .unit (spellsUnit_control h)
  · next hquote hescape _ _ _ _ _ hlow => exact .plain (by omega) hquote hescape

theorem spellsString_quote (s : String) : SpellsString s (quote s.toList) := by
  have hchars : ∀ chars : List Char, SpellsChars chars (chars.flatMap escapeChar) := by
    intro chars
    induction chars with
    | nil => exact .nil
    | cons c chars ih =>
      rw [List.flatMap_cons]
      exact .cons (spellsChar_escapeChar c) ih
  exact .mk (hchars s.toList)

/-! ### Written values -/

theorem allSpace_nil : AllSpace [] := by
  intro c hc
  exact absurd hc List.not_mem_nil

theorem allSpace_newLine (indent depth : Nat) : AllSpace (newLine indent depth) := by
  intro c hc
  rw [newLine, List.mem_cons, List.mem_replicate] at hc
  rcases hc with rfl | ⟨-, rfl⟩ <;> rfl

theorem spellsItems_compact {items : List Json} (hne : items ≠ [])
    (h : ∀ item ∈ items, Spells item (compact item)) : SpellsItems items (compactItems items) := by
  induction items with
  | nil => exact absurd rfl hne
  | cons item items ih =>
    have hitem := h item List.mem_cons_self
    cases items with
    | nil =>
      rw [compactItems, ← List.append_nil (compact item)]
      exact .last hitem allSpace_nil
    | cons next items =>
      rw [compactItems]
      · exact .cons hitem allSpace_nil allSpace_nil
          (ih (List.cons_ne_nil _ _) fun other hother => h other (List.mem_cons_of_mem _ hother))
      · nofun

theorem spellsMembers_compact {members : List (String × Json)} (hne : members ≠ [])
    (h : ∀ member ∈ members, Spells member.2 (compact member.2)) :
    SpellsMembers members (compactMembers members) := by
  induction members with
  | nil => exact absurd rfl hne
  | cons member members ih =>
    obtain ⟨key, value⟩ := member
    have hmember : SpellsMember (key, value) (quote key.toList ++ ':' :: compact value) :=
      .mk (spellsString_quote key) allSpace_nil allSpace_nil (h _ List.mem_cons_self)
    cases members with
    | nil =>
      rw [compactMembers, ← List.append_nil (quote key.toList ++ ':' :: compact value)]
      exact .last hmember allSpace_nil
    | cons next members =>
      have hall := SpellsMembers.cons hmember allSpace_nil allSpace_nil
        (ih (List.cons_ne_nil _ _) fun other hother => h other (List.mem_cons_of_mem _ hother))
      rw [compactMembers]
      · simpa only [List.append_assoc, List.cons_append, List.nil_append] using hall
      · nofun

/-- **The text on one line spells the value.** -/
theorem spells_compact {levels : Nat} {json : Json} (h : Regular levels json) :
    Spells json (compact json) := by
  induction h with
  | null => exact .null
  | bool value =>
    cases value with
    | false => exact .false_
    | true => exact .true_
  | natural h => exact .natural h
  | string value => exact .string (spellsString_quote value)
  | @array levels items _ ih =>
    rw [compact]
    cases items with
    | nil => exact .emptyArray allSpace_nil
    | cons item items => exact .array allSpace_nil (spellsItems_compact (List.cons_ne_nil _ _) ih)
  | @object levels members _ _ ih =>
    rw [compact]
    cases members with
    | nil => exact .emptyObject allSpace_nil
    | cons member members =>
      exact .object allSpace_nil (spellsMembers_compact (List.cons_ne_nil _ _) ih)

theorem spellsItems_pretty {indent depth : Nat} {items : List Json} (hne : items ≠ [])
    (h : ∀ item ∈ items, Spells item (pretty indent depth item)) {behind : List Char}
    (hbehind : AllSpace behind) :
    ∃ text, prettyItems indent depth items ++ behind = newLine indent depth ++ text ∧
      SpellsItems items text := by
  induction items with
  | nil => exact absurd rfl hne
  | cons item items ih =>
    have hitem := h item List.mem_cons_self
    cases items with
    | nil =>
      rw [prettyItems, List.append_assoc]
      exact ⟨_, rfl, .last hitem hbehind⟩
    | cons next items =>
      obtain ⟨text, htext, hmore⟩ := ih (List.cons_ne_nil _ _) fun other hother =>
        h other (List.mem_cons_of_mem _ hother)
      rw [prettyItems]
      · rw [List.append_assoc, List.append_assoc, List.cons_append, htext]
        exact ⟨_, rfl, .cons hitem allSpace_nil (allSpace_newLine indent depth) hmore⟩
      · nofun

theorem spellsMembers_pretty {indent depth : Nat} {members : List (String × Json)}
    (hne : members ≠ []) (h : ∀ member ∈ members, Spells member.2 (pretty indent depth member.2))
    {behind : List Char} (hbehind : AllSpace behind) :
    ∃ text, prettyMembers indent depth members ++ behind = newLine indent depth ++ text ∧
      SpellsMembers members text := by
  induction members with
  | nil => exact absurd rfl hne
  | cons member members ih =>
    obtain ⟨key, value⟩ := member
    have hblank : AllSpace [' '] := by
      intro c hc
      rw [List.mem_singleton.mp hc]
      rfl
    have hmember :
        SpellsMember (key, value) (quote key.toList ++ ':' :: ' ' :: pretty indent depth value) :=
      .mk (spellsString_quote key) allSpace_nil hblank (h _ List.mem_cons_self)
    cases members with
    | nil =>
      rw [prettyMembers, List.append_assoc]
      exact ⟨_, rfl, .last hmember hbehind⟩
    | cons next members =>
      obtain ⟨text, htext, hmore⟩ := ih (List.cons_ne_nil _ _) fun other hother =>
        h other (List.mem_cons_of_mem _ hother)
      refine ⟨quote key.toList ++ ':' :: ' ' :: pretty indent depth value ++
        ([] ++ ',' :: (newLine indent depth ++ text)), ?_,
        .cons hmember allSpace_nil (allSpace_newLine indent depth) hmore⟩
      rw [prettyMembers]
      · rw [← htext]
        simp only [List.append_assoc, List.cons_append, List.nil_append]
      · nofun

/-- **The text on many lines spells the value**, at every depth. -/
theorem spells_pretty {levels : Nat} {json : Json} (h : Regular levels json) (indent depth : Nat) :
    Spells json (pretty indent depth json) := by
  induction h generalizing depth with
  | null => exact .null
  | bool value =>
    cases value with
    | false => exact .false_
    | true => exact .true_
  | natural h => exact .natural h
  | string value => exact .string (spellsString_quote value)
  | @array levels items _ ih =>
    cases items with
    | nil => exact .emptyArray allSpace_nil
    | cons item items =>
      obtain ⟨text, htext, hitems⟩ := spellsItems_pretty (List.cons_ne_nil item items)
        (fun other hother => ih other hother (depth + 1)) (allSpace_newLine indent depth)
      rw [pretty, ← List.append_assoc, htext, List.append_assoc]
      exact .array (allSpace_newLine indent (depth + 1)) hitems
  | @object levels members _ _ ih =>
    cases members with
    | nil => exact .emptyObject allSpace_nil
    | cons member members =>
      obtain ⟨text, htext, hmembers⟩ := spellsMembers_pretty (List.cons_ne_nil member members)
        (fun other hother => ih other hother (depth + 1)) (allSpace_newLine indent depth)
      rw [pretty, ← List.append_assoc, htext, List.append_assoc]
      exact .object (allSpace_newLine indent (depth + 1)) hmembers

/-- Every layout of a regular value spells it. -/
theorem spellsDocument_render {levels : Nat} {json : Json} (h : Regular levels json)
    (layout : Layout) : SpellsDocument json (render layout json).toList := by
  refine ⟨[], (render layout json).toList, [], (List.append_nil _).symm, allSpace_nil, allSpace_nil,
    ?_⟩
  cases layout with
  | compact =>
    rw [render, String.toList_ofList]
    exact spells_compact h
  | pretty indent =>
    rw [render, String.toList_ofList]
    exact spells_pretty h indent 0

end SourceOutline.Json
