import SourceOutline.Proofs.Text.Within

/-!
# The bytes of a text

The bytes of a text in UTF-8 are those of its characters, one after the other. Of the bytes of a
character the first can be told from the others by its value alone, and a byte below `0x80` is a
character of its own (`IsEncoding`). So the boundaries of a text are **the places in front of a
first byte, and the end** (`isCharStart_bytes_iff`), and there are as many characters as first bytes
(`countP_beginsChar_bytes`).
-/

namespace SourceOutline.Text

/-- The bytes of a text in UTF-8. -/
def bytes (text : List Char) : List UInt8 :=
  text.flatMap String.utf8EncodeChar

/-- Whether a character can begin with the byte, or the byte only goes on with one. -/
def beginsChar (byte : UInt8) : Bool :=
  byte.toNat < 0x80 || 0xC0 ≤ byte.toNat

/-- Whether a character begins at a place among bytes, or the bytes end there. -/
def isCharStart (bytes : List UInt8) (place : Nat) : Bool :=
  match bytes[place]? with
  | some byte => beginsChar byte
  | none => place = bytes.length

/-- Bytes in front only move the places. -/
theorem isCharStart_append (front bytes : List UInt8) (place : Nat) :
    isCharStart (front ++ bytes) (front.length + place) = isCharStart bytes place := by
  rw [isCharStart, isCharStart, List.getElem?_append_right (Nat.le_add_right _ _),
    Nat.add_sub_cancel_left]
  simp only [List.length_append, Nat.add_left_cancel_iff]

/-! ### The bytes of a character -/

/-- How the bytes of a character are made up. -/
structure IsEncoding (c : Char) (first : UInt8) (others : List UInt8) : Prop where
  encode_eq : String.utf8EncodeChar c = first :: others
  beginsChar_first : beginsChar first = true
  beginsChar_others : ∀ byte ∈ others, beginsChar byte = false
  /-- A character of ASCII is a byte by itself, and no byte of another one is below `0x80`. -/
  ascii : first.toNat = c.toNat ∧ others = [] ∨ 0x80 ≤ first.toNat ∧ 0x80 ≤ c.toNat

/-- A character outside ASCII is encoded by a byte that it begins with, and others that each hold
six bits of it. -/
private theorem isEncoding_ofNat {c : Char} (first : Nat) (others : List Nat)
    (h : String.utf8EncodeChar c =
      UInt8.ofNat first :: others.map fun bits => UInt8.ofNat (bits % 0x40 + 0x80))
    (hle : 0xC0 ≤ first) (hlt : first < 0x100) (hc : 0x80 ≤ c.toNat) :
    IsEncoding c (UInt8.ofNat first)
      (others.map fun bits => UInt8.ofNat (bits % 0x40 + 0x80)) := by
  have hfirst : (UInt8.ofNat first).toNat = first := UInt8.toNat_ofNat_of_lt' hlt
  refine ⟨h, ?_, ?_, .inr ⟨?_, hc⟩⟩
  · simp only [beginsChar, hfirst, hle, decide_true, Bool.or_true]
  · rw [List.forall_mem_map]
    intro bits _
    simp only [beginsChar, UInt8.toNat_ofNat', Bool.or_eq_false_iff, decide_eq_false_iff_not]
    omega
  · rw [hfirst]
    omega

theorem exists_isEncoding (c : Char) : ∃ first others, IsEncoding c first others := by
  have hmax : c.val.toNat < 0x110000 := by
    rcases c.valid with h | ⟨-, h⟩
    · exact Nat.lt_trans h (by decide)
    · exact h
  have hc : c.toNat = c.val.toNat := rfl
  by_cases h1 : c.val.toNat ≤ 0x7F
  · have hfirst : (UInt8.ofNat c.val.toNat).toNat = c.val.toNat :=
      UInt8.toNat_ofNat_of_lt' (Nat.lt_of_le_of_lt h1 (by decide))
    refine ⟨UInt8.ofNat c.val.toNat, [], ?_, ?_, nofun, .inl ⟨hfirst, rfl⟩⟩
    · simp only [String.utf8EncodeChar, if_pos h1]
    · have hlt : c.val.toNat < 0x80 := by omega
      simp only [beginsChar, hfirst, hlt, decide_true, Bool.true_or]
  by_cases h2 : c.val.toNat ≤ 0x7FF
  · refine ⟨_, _, isEncoding_ofNat (c.val.toNat / 64 % 0x20 + 0xC0) [c.val.toNat] ?_ (by omega)
      (by omega) (by omega)⟩
    simp only [String.utf8EncodeChar, if_neg h1, if_pos h2, List.map_cons, List.map_nil]
  by_cases h3 : c.val.toNat ≤ 0xFFFF
  · refine ⟨_, _, isEncoding_ofNat (c.val.toNat / 4096 % 0x10 + 0xE0)
      [c.val.toNat / 64, c.val.toNat] ?_ (by omega) (by omega) (by omega)⟩
    simp only [String.utf8EncodeChar, if_neg h1, if_neg h2, if_pos h3, List.map_cons, List.map_nil]
  · refine ⟨_, _, isEncoding_ofNat (c.val.toNat / 262144 % 0x08 + 0xF0)
      [c.val.toNat / 4096, c.val.toNat / 64, c.val.toNat] ?_ (by omega) (by omega) (by omega)⟩
    simp only [String.utf8EncodeChar, if_neg h1, if_neg h2, if_neg h3, List.map_cons, List.map_nil]

namespace IsEncoding

variable {c : Char} {first : UInt8} {others : List UInt8}

/-- As many bytes as the character has. -/
theorem length_others (h : IsEncoding c first others) : others.length + 1 = c.utf8Size := by
  rw [← String.length_utf8EncodeChar, h.encode_eq, List.length_cons]

/-- A byte of a character is the character itself, if that is one of ASCII, or no such character. -/
theorem eq_or_le_of_mem (h : IsEncoding c first others) {byte : UInt8}
    (hmem : byte ∈ String.utf8EncodeChar c) : byte.toNat = c.toNat ∨ 0x80 ≤ byte.toNat := by
  rw [h.encode_eq] at hmem
  rcases List.mem_cons.mp hmem with rfl | hmem
  · exact h.ascii.imp And.left And.left
  · have hgoesOn := h.beginsChar_others byte hmem
    simp only [beginsChar, Bool.or_eq_false_iff, decide_eq_false_iff_not, Nat.not_lt] at hgoesOn
    exact .inr hgoesOn.1

end IsEncoding

/-! ### The bytes of a text -/

@[simp]
theorem bytes_nil : bytes [] = [] := rfl

theorem IsEncoding.bytes_cons {c : Char} {first : UInt8} {others : List UInt8}
    (h : IsEncoding c first others) (text : List Char) :
    bytes (c :: text) = first :: (others ++ bytes text) := by
  rw [bytes, List.flatMap_cons, h.encode_eq, List.cons_append]
  rfl

@[simp]
theorem bytes_append (s t : List Char) : bytes (s ++ t) = bytes s ++ bytes t :=
  List.flatMap_append

/-- The bytes of a string are those of its characters. -/
theorem toList_toUTF8 (text : String) : text.toUTF8.data.toList = bytes text.toList := by
  rw [String.toUTF8_eq_toByteArray, ← String.utf8Encode_toList, List.utf8Encode,
    List.toList_data_toByteArray, bytes]

@[simp]
theorem length_bytes (text : List Char) : (bytes text).length = width text := by
  induction text with
  | nil => rfl
  | cons c text ih =>
    calc (bytes (c :: text)).length
      _ = (String.utf8EncodeChar c).length + (bytes text).length := by
        rw [bytes, List.flatMap_cons, List.length_append, bytes]
      _ = c.utf8Size + width text := by rw [String.length_utf8EncodeChar, ih]
      _ = width (c :: text) := (width_cons c text).symm

/-- There are as many characters as bytes that one begins with. -/
theorem countP_beginsChar_bytes (text : List Char) :
    (bytes text).countP beginsChar = text.length := by
  induction text with
  | nil => rfl
  | cons c text ih =>
    obtain ⟨first, others, h⟩ := exists_isEncoding c
    have hothers : others.countP beginsChar = 0 :=
      List.countP_eq_zero.mpr fun byte hbyte => by simp [h.beginsChar_others byte hbyte]
    calc (bytes (c :: text)).countP beginsChar
      _ = (others ++ bytes text).countP beginsChar + 1 := by
        rw [h.bytes_cons, List.countP_cons_of_pos h.beginsChar_first]
      _ = text.length + 1 := by rw [List.countP_append, hothers, ih, Nat.zero_add]

/-- **The boundaries are where a character begins among the bytes, or these end.** -/
theorem isCharStart_bytes_iff {text : List Char} {place : Nat} :
    isCharStart (bytes text) place = true ↔ IsBoundary text place := by
  induction text generalizing place with
  | nil =>
    rw [isCharStart, bytes_nil, List.getElem?_nil, List.length_nil, decide_eq_true_eq]
    constructor
    · rintro rfl
      exact isBoundary_zero []
    · rintro ⟨front, back, htext, rfl⟩
      rw [(List.append_eq_nil_iff.mp htext.symm).1, width_nil]
  | cons c text ih =>
    obtain ⟨first, others, h⟩ := exists_isEncoding c
    have hsize := h.length_others
    have hsize' : (first :: others).length = c.utf8Size := by rw [List.length_cons, hsize]
    rw [isBoundary_cons_iff, h.bytes_cons, ← List.cons_append]
    rcases Nat.lt_or_ge place (first :: others).length with hlt | hge
    · have hnone : ¬ ∃ rest, place = c.utf8Size + rest ∧ IsBoundary text rest := by
        rintro ⟨rest, rfl, -⟩
        omega
      rw [or_iff_left hnone, isCharStart, List.getElem?_append_left hlt,
        List.getElem?_eq_getElem hlt]
      cases place with
      | zero => exact iff_of_true h.beginsChar_first rfl
      | succ place =>
        have hothers : place < others.length := by
          rw [List.length_cons] at hlt
          omega
        simp [h.beginsChar_others _ (List.getElem_mem hothers)]
    · obtain ⟨rest, rfl⟩ := Nat.exists_eq_add_of_le hge
      rw [isCharStart_append, ih, hsize']
      constructor
      · exact fun hrest => .inr ⟨rest, rfl, hrest⟩
      · rintro (hzero | ⟨rest', heq, hrest⟩)
        · omega
        · obtain rfl := Nat.add_left_cancel heq
          exact hrest

end SourceOutline.Text
