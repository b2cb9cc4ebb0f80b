import SourceOutline.Json.Tree

/-!
# Numbers as they are written

Whatever a number is, it is written with **few characters** (`numerals`): digits, the sign, the
point, and the letter of an exponent. **Main result** (`text_subset_numerals`): no other character
occurs in a written number.
-/

namespace SourceOutline.Json

/-- The characters that numbers are written with. -/
def numerals : List Char :=
  "0123456789-.e".toList

theorem mem_numerals_of_isDigit {c : Char} (h : c.isDigit = true) : c ∈ numerals := by
  simp only [Char.isDigit, Bool.and_eq_true, decide_eq_true_iff, ge_iff_le,
    UInt32.le_iff_toNat_le] at h
  have hdigits : ∀ k < 10, Char.ofNat (48 + k) ∈ numerals := by decide
  have hlow : 48 ≤ c.toNat := h.1
  have hhigh : c.toNat ≤ 57 := h.2
  have hc := hdigits (c.toNat - 48) (by omega)
  rwa [Nat.add_sub_cancel' hlow, Char.ofNat_toNat] at hc

theorem toDigits_subset_numerals (n : Nat) : Nat.toDigits 10 n ⊆ numerals := fun _ hc =>
  mem_numerals_of_isDigit (Nat.isDigit_of_mem_toDigits (by decide) (by decide) hc)

theorem zeros_subset_numerals (n : Nat) : List.replicate n '0' ⊆ numerals := by
  intro c hc
  rw [List.eq_of_mem_replicate hc]
  decide

theorem signedDigits_subset_numerals (value : Int) : signedDigits value ⊆ numerals := by
  cases value with
  | ofNat n => exact toDigits_subset_numerals n
  | negSucc n => exact List.cons_subset.mpr ⟨by decide, toDigits_subset_numerals (n + 1)⟩

theorem signedDigits_ne_nil (value : Int) : signedDigits value ≠ [] := by
  cases value with
  | ofNat n => exact Nat.toDigits_ne_nil
  | negSucc n => exact List.cons_ne_nil _ _

section Decimal

variable (d : Decimal)

theorem positional_subset_numerals : d.positional ⊆ numerals := by
  have hdigits : d.digits ⊆ numerals := toDigits_subset_numerals d.significand
  unfold Decimal.positional
  split
  · exact List.append_subset.mpr ⟨hdigits, zeros_subset_numerals _⟩
  split
  · refine List.append_subset.mpr ⟨fun c hc => hdigits (List.mem_of_mem_take hc), ?_⟩
    exact List.cons_subset.mpr ⟨by decide, fun c hc => hdigits (List.mem_of_mem_drop hc)⟩
  · exact List.cons_subset.mpr ⟨by decide, List.cons_subset.mpr
      ⟨by decide, List.append_subset.mpr ⟨zeros_subset_numerals _, hdigits⟩⟩⟩

theorem scientific_subset_numerals : d.scientific ⊆ numerals := by
  have hdigits : d.digits ⊆ numerals := toDigits_subset_numerals d.significand
  have hfirst : d.digits.take 1 ⊆ numerals := fun c hc => hdigits (List.mem_of_mem_take hc)
  have hfraction : d.digits.tail ⊆ numerals := fun c hc => hdigits (List.mem_of_mem_tail hc)
  have hpower := signedDigits_subset_numerals (d.places - 1)
  unfold Decimal.scientific
  dsimp only
  refine List.append_subset.mpr
    ⟨List.append_subset.mpr ⟨hfirst, ?_⟩, List.cons_subset.mpr ⟨by decide, hpower⟩⟩
  split
  · exact List.nil_subset _
  · exact List.cons_subset.mpr ⟨by decide, hfraction⟩

/-- A decimal without exponent has a digit, in front of the point or alone. -/
theorem positional_ne_nil : d.positional ≠ [] := by
  unfold Decimal.positional
  split
  · exact List.append_ne_nil_of_left_ne_nil Nat.toDigits_ne_nil _
  split
  · exact List.append_ne_nil_of_right_ne_nil _ (List.cons_ne_nil _ _)
  · exact List.cons_ne_nil _ _

theorem scientific_ne_nil : d.scientific ≠ [] :=
  List.append_ne_nil_of_right_ne_nil _ (List.cons_ne_nil _ _)

end Decimal

theorem doubleText_subset_numerals (value : Binary64) : doubleText value ⊆ numerals := by
  have hpositional := positional_subset_numerals (value.shortest .even)
  unfold doubleText
  dsimp only
  split
  · split
    · exact List.append_subset.mpr ⟨hpositional, by decide⟩
    · exact hpositional
  · exact scientific_subset_numerals _

theorem doubleText_ne_nil (value : Binary64) : doubleText value ≠ [] := by
  unfold doubleText
  dsimp only
  split
  · split
    · exact List.append_ne_nil_of_right_ne_nil _ (List.cons_ne_nil _ _)
    · exact positional_ne_nil _
  · exact scientific_ne_nil _

/-- **A number is written with numerals.** -/
theorem text_subset_numerals (value : Number) : value.text ⊆ numerals := by
  cases value with
  | whole value => exact signedDigits_subset_numerals value
  | decimal negative value =>
    cases negative with
    | false => exact doubleText_subset_numerals value
    | true => exact List.cons_subset.mpr ⟨by decide, doubleText_subset_numerals value⟩

/-- Numbers with an exponent and without, and one that is just below its power of ten. -/
example : [⟨1, 16⟩, ⟨15, -1⟩, ⟨1, -7⟩].map (fun d : Decimal => d.nearest.map doubleText) =
    [some "1e16".toList, some "1.5".toList, some "1e-7".toList] := by
  decide +kernel

/-- A number is written with at least one character. -/
theorem text_ne_nil (value : Number) : value.text ≠ [] := by
  cases value with
  | whole value => exact signedDigits_ne_nil value
  | decimal negative value =>
    cases negative with
    | false => exact doubleText_ne_nil value
    | true => exact List.cons_ne_nil _ _

end SourceOutline.Json
