import SourceOutline.Proofs.Json.Variation

/-!
# Types that are read back as they were written

A type is read by its coding in two steps: a reader makes the plain form of the text, and the value
is taken from that form. A value is `Json.Coding.Faithful` if its own plain form is regular, is made
of everything that varies from it, and gives the value back.

**Main results**: a faithful value is read from every text that spells a variation of its plain form
(`Coding.Faithful.tolerates`), and so from all its layouts (`Coding.Faithful.roundTrips`).
-/

namespace SourceOutline.Json

variable {levels : Nat}

/-- **Every text that spells a value is read as its plain form.** -/
theorem Reader.decode_of_spells {reader : Reader} {json plain : Json} {text : List Char}
    (htext : SpellsDocument json text) (hreads : reader.Reads levels json plain)
    (hlevels : levels < depthLimit) : reader.decode text = .ok plain := by
  obtain ⟨hroot, htrailing⟩ := Document.denotes_ofText htext
  rw [decode]
  simp only [Bind.bind, Except.bind, hreads depthLimit _ hlevels hroot, htrailing]
  rfl

/-- Every text that spells a regular value is read as that value. -/
theorem parse_of_spells {json : Json} {text : List Char} (htext : SpellsDocument json text)
    (h : Regular levels json) (hlevels : levels < depthLimit) : Json.parse text = .ok json :=
  Reader.decode_of_spells htext (reads_any h.within) hlevels

/-! ### Codings -/

namespace Coding

variable {α : Type} {coding : Coding α} {value : α}

/-- Every text that spells a value of which the plain form is made is read as what that form stands
for. -/
theorem decode_of_spells {json : Json} {text : List Char} (htext : SpellsDocument json text)
    (hreads : coding.shape.Reads levels json (coding.write value)) (hlevels : levels < depthLimit)
    (hread : coding.read? (coding.write value) = some value) : coding.decode text = .ok value := by
  -- The reader makes the plain form that was written, whichever text it stands in.
  have hplain : coding.shape.decode text = .ok (coding.write value) :=
    Reader.decode_of_spells htext hreads hlevels
  rw [decode]
  simp only [Bind.bind, Except.bind, hplain, hread]
  rfl

/-- A value whose plain form is regular, is made of everything that varies from it, and gives the
value back. -/
structure Faithful (coding : Coding α) (schema : Schema) (levels : Nat) (value : α) : Prop where
  regular : Regular levels (coding.write value)
  admits : coding.shape.Admits levels schema (coding.write value)
  read? : coding.read? (coding.write value) = some value

/-- A value is read from all texts that spell a variation of its plain form. -/
def Tolerates (coding : Coding α) (schema : Schema) (value : α) : Prop :=
  ∀ other text, Varies schema (coding.write value) other → SpellsDocument other text →
    coding.decode text = .ok value

/-- A value is read back from all its layouts, those with the members in their own order and those
with all keys sorted. -/
def RoundTrips (coding : Coding α) (value : α) : Prop :=
  ∀ layout, coding.decode (coding.encode layout value).toList = .ok value ∧
    coding.decode (render layout (coding.write value).sortKeys).toList = .ok value

variable {schema : Schema}

/-- **A faithful value is read from all variations.** -/
theorem Faithful.tolerates (h : coding.Faithful schema levels value)
    (hlevels : levels < depthLimit) : coding.Tolerates schema value :=
  fun other _ hother htext => decode_of_spells htext (h.admits.reads other hother) hlevels h.read?

/-- **A faithful value is read back from all its layouts.** -/
theorem Faithful.roundTrips (h : coding.Faithful schema levels value)
    (hlevels : levels < depthLimit) : coding.RoundTrips value := by
  intro layout
  have hsorted : Varies schema (coding.write value) (coding.write value).sortKeys :=
    h.admits.conforms.agrees (agrees_sortKeys h.regular)
  constructor
  · exact h.tolerates hlevels _ _ h.admits.conforms (spellsDocument_render h.regular layout)
  · exact h.tolerates hlevels _ _ hsorted (spellsDocument_render h.regular.sortKeys layout)

end Coding

end SourceOutline.Json
