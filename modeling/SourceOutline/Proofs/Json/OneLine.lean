import SourceOutline.Proofs.Json.Numeral

/-!
# A compact text is one line

A compact text has no blanks of its own, and in its strings all characters below U+0020 are escaped.
So it holds none of these characters, and no line feed, whatever the value is.

**Main result** (`oneLine_compact`): every compact text is on one line.
-/

namespace SourceOutline.Json

/-- Whether a text holds no character below U+0020, and so no line feed. -/
def OneLine (text : List Char) : Prop :=
  ∀ c ∈ text, 0x20 ≤ c.toNat

instance (text : List Char) : Decidable (OneLine text) :=
  List.decidableBAll (fun c : Char => 0x20 ≤ c.toNat) text

namespace OneLine

variable {c : Char} {s t : List Char}

theorem nil : OneLine [] :=
  fun _ hc => absurd hc List.not_mem_nil

theorem cons (hc : 0x20 ≤ c.toNat) (ht : OneLine t) : OneLine (c :: t) :=
  List.forall_mem_cons.mpr ⟨hc, ht⟩

theorem append (hs : OneLine s) (ht : OneLine t) : OneLine (s ++ t) :=
  List.forall_mem_append.mpr ⟨hs, ht⟩

/-- A text between two characters. -/
theorem between {left right : Char} (hleft : 0x20 ≤ left.toNat) (ht : OneLine t)
    (hright : 0x20 ≤ right.toNat) : OneLine (left :: (t ++ [right])) :=
  cons hleft (ht.append (cons hright nil))

/-- Two texts with a character between them. -/
theorem separated (hs : OneLine s) (hc : 0x20 ≤ c.toNat) (ht : OneLine t) : OneLine (s ++ c :: t) :=
  hs.append (cons hc ht)

theorem flatMap {f : Char → List Char} (h : ∀ c, OneLine (f c)) (text : List Char) :
    OneLine (text.flatMap f) := by
  intro c hc
  obtain ⟨source, -, hsource⟩ := List.mem_flatMap.mp hc
  exact h source c hsource

end OneLine

/-! ### Strings -/

theorem oneLine_escapeChar (c : Char) : OneLine (escapeChar c) := by
  have hdigit : ∀ n, 0x20 ≤ (hexDigit n).toNat := by
    have hsmall : ∀ n < 16, 0x20 ≤ n.digitChar.toNat := by decide
    exact fun n => hsmall (n % 16) (Nat.mod_lt n (by decide))
  unfold escapeChar
  -- The seven characters with a short escape come first.
  iterate 7
    split
    · decide
  split
  · have hzero : OneLine ['\\', 'u', '0', '0'] := by decide
    exact hzero.append (.cons (hdigit _) (.cons (hdigit _) .nil))
  · next h => exact .cons (Nat.le_of_not_lt h) .nil

theorem oneLine_quote (text : List Char) : OneLine (quote text) :=
  .between (by decide) (.flatMap oneLine_escapeChar text) (by decide)

/-! ### Numbers -/

theorem oneLine_text (value : Number) : OneLine value.text := by
  have hnumerals : OneLine numerals := by decide
  exact fun c hc => hnumerals c (text_subset_numerals value hc)

/-! ### Values -/

mutual

/-- **Every compact text is on one line.** -/
theorem oneLine_compact : ∀ json : Json, OneLine (compact json)
  | .null => by decide
  | .bool true => by decide
  | .bool false => by decide
  | .number value => oneLine_text value
  | .string value => oneLine_quote value.toList
  | .array items => .between (by decide) (oneLine_compactItems items) (by decide)
  | .object members => .between (by decide) (oneLine_compactMembers members) (by decide)

theorem oneLine_compactItems : ∀ items : List Json, OneLine (compactItems items)
  | [] => .nil
  | [item] => oneLine_compact item
  | item :: next :: rest =>
    (oneLine_compact item).separated (by decide) (oneLine_compactItems (next :: rest))

theorem oneLine_compactMembers : ∀ members : List (String × Json),
    OneLine (compactMembers members)
  | [] => .nil
  | [(key, value)] => (oneLine_quote key.toList).separated (by decide) (oneLine_compact value)
  | (key, value) :: next :: rest =>
    (oneLine_quote key.toList).separated (by decide)
      ((oneLine_compact value).separated (by decide) (oneLine_compactMembers (next :: rest)))

end

/-- A value is written on one line. -/
theorem oneLine_render_compact (json : Json) : OneLine (render .compact json).toList := by
  rw [render, String.toList_ofList]
  exact oneLine_compact json

end SourceOutline.Json
