import SourceOutline.Proofs.Position.Bytes

/-!
# Where lines start

A table of lines holds the offsets at which they start. Among the bytes of the text these are 0 and
**the places at which a line has just ended**: behind a line feed, and behind a carriage return that
no line feed follows (`Bytes.EndsLineAt`). So whether a line starts at a place can be told from the
two bytes around it, although the table is made in one pass that sometimes takes two bytes at once
(`Bytes.mem_lineStarts_iff`).

**Main result** (`LineTable.starts_delimit_lines`): the offsets ascend from 0, each is a boundary of
the text, and the stretches from each one to the next are the lines, which make up the text.
-/

namespace SourceOutline

open Text

namespace Bytes

/-! ### Which places are found -/

/-- Whether a line ends in front of a place: the byte there is a line feed, or it is a carriage
return and the byte at the place is no line feed. -/
def EndsLineAt (bytes : List UInt8) (place : Nat) : Prop :=
  ∃ index, place = index + 1 ∧
    (bytes[index]? = some 10 ∨ bytes[index]? = some 13 ∧ bytes[index + 1]? ≠ some 10)

/-- The first byte ends a line depending on the byte behind it, and all others end one as they do
without the first. -/
theorem endsLineAt_cons_iff {byte : UInt8} {rest : List UInt8} {place : Nat} :
    EndsLineAt (byte :: rest) place ↔
      place = 1 ∧ (byte = 10 ∨ byte = 13 ∧ rest.head? ≠ some 10) ∨
        ∃ behind, place = behind + 1 ∧ EndsLineAt rest behind := by
  constructor
  · rintro ⟨_ | index, rfl, h⟩
    · rw [List.getElem?_cons_zero, List.getElem?_cons_succ, Option.some_inj, Option.some_inj,
        ← List.head?_eq_getElem?] at h
      exact .inl ⟨rfl, h⟩
    · rw [List.getElem?_cons_succ, List.getElem?_cons_succ] at h
      exact .inr ⟨index + 1, rfl, index, rfl, h⟩
  · rintro (⟨rfl, h⟩ | ⟨_, rfl, index, rfl, h⟩)
    · refine ⟨0, rfl, ?_⟩
      rwa [List.getElem?_cons_zero, List.getElem?_cons_succ, Option.some_inj, Option.some_inj,
        ← List.head?_eq_getElem?]
    · refine ⟨index + 1, rfl, ?_⟩
      rwa [List.getElem?_cons_succ, List.getElem?_cons_succ]

/-- The same with places that are counted from an offset on. -/
private theorem exists_endsLineAt_cons_iff {offset : Nat} {byte : UInt8} {rest : List UInt8}
    {place : Nat} :
    (∃ behind, place = offset + behind ∧ EndsLineAt (byte :: rest) behind) ↔
      place = offset + 1 ∧ (byte = 10 ∨ byte = 13 ∧ rest.head? ≠ some 10) ∨
        ∃ behind, place = offset + 1 + behind ∧ EndsLineAt rest behind := by
  simp only [endsLineAt_cons_iff]
  constructor
  · rintro ⟨_, rfl, ⟨rfl, h⟩ | ⟨behind, rfl, h⟩⟩
    · exact .inl ⟨rfl, h⟩
    · exact .inr ⟨behind, by rw [Nat.add_assoc, Nat.add_comm 1], h⟩
  · rintro (⟨rfl, h⟩ | ⟨behind, rfl, h⟩)
    · exact ⟨1, rfl, .inl ⟨rfl, h⟩⟩
    · exact ⟨behind + 1, by rw [Nat.add_assoc, Nat.add_comm 1], .inr ⟨behind, rfl, h⟩⟩

/-- **The pass finds the places behind line ends**, counted from the offset of the first byte on. -/
theorem mem_lineStarts_iff {offset : Nat} {bytes : List UInt8} {place : Nat} :
    place ∈ lineStarts offset bytes ↔
      ∃ behind, place = offset + behind ∧ EndsLineAt bytes behind := by
  fun_induction lineStarts offset bytes with
  | case1 offset => simp [EndsLineAt]
  | case2 offset rest ih =>
    rw [List.mem_cons, ih, exists_endsLineAt_cons_iff]
    simp
  | case3 offset rest ih =>
    -- The line ends behind the line feed only.
    rw [List.mem_cons, ih, exists_endsLineAt_cons_iff, exists_endsLineAt_cons_iff]
    simp [Nat.add_assoc]
  | case4 offset rest hrest ih =>
    have hhead : rest.head? ≠ some 10 := fun h => by
      obtain ⟨more, hmore⟩ := List.head?_eq_some_iff.mp h
      exact hrest more hmore
    rw [List.mem_cons, ih, exists_endsLineAt_cons_iff]
    simp [hhead]
  | case5 offset byte rest hfeed hboth hreturn ih =>
    have hbyte : ¬ (byte = 10 ∨ byte = 13 ∧ rest.head? ≠ some 10) := by
      rintro (h | ⟨h, -⟩)
      · exact hfeed h
      · exact hreturn h
    rw [ih, exists_endsLineAt_cons_iff]
    simp only [hbyte, and_false, false_or]

/-! ### The stretches between places -/

/-- The stretches from each place to the next, and from the last one to the end. Each has to be a
slice whose ends are in order and no place inside a character. -/
def slices? (bytes : List UInt8) : (places : List Nat) → Option (List (List UInt8))
  | [] => some []
  | [start] => do
    let last ← slice? bytes start bytes.length
    some [last]
  | start :: stop :: places => do
    let stretch ← slice? bytes start stop
    let others ← slices? bytes (stop :: places)
    some (stretch :: others)

/-- A stretch that ends where the next one starts comes in front of the others. -/
private theorem slices?_cons {bytes stretch : List UInt8} {others : List (List UInt8)}
    {start stop : Nat} {places : List Nat} (hslice : slice? bytes start stop = some stretch)
    (hothers : slices? bytes (stop :: places) = some others) :
    slices? bytes (start :: stop :: places) = some (stretch :: others) := by
  rw [slices?, hslice, hothers]
  rfl

/-- Where the given lines start, the stretches are the lines. -/
theorem slices?_tabulate (front : List Char) (lines : List (List Char)) :
    slices? (bytes (front ++ lines.flatten))
        ((LineTable.tabulate (width front) lines).map Line.start) =
      some (lines.map bytes) := by
  induction lines generalizing front with
  | nil => rfl
  | cons line lines ih =>
    have hline := slice?_bytes front line lines.flatten
    rw [width_append, List.append_assoc, ← List.flatten_cons] at hline
    cases lines with
    | nil =>
      rw [List.flatten_cons, List.flatten_nil, List.append_nil] at hline ⊢
      have hlength : (bytes (front ++ line)).length = width front + width line := by
        rw [length_bytes, width_append]
      have hplaces : (LineTable.tabulate (width front) [line]).map Line.start = [width front] := rfl
      rw [hplaces, slices?, hlength, hline]
      rfl
    | cons next lines =>
      have hothers := ih (front ++ line)
      rw [width_append, List.append_assoc, ← List.flatten_cons, LineTable.tabulate, List.map_cons]
        at hothers
      exact slices?_cons hline hothers

end Bytes

namespace LineTable

/-- **Where the lines of a text start.** The starts are those that a pass over the bytes finds: 0
first, then in ascending order exactly the places at which a line has just ended. Each one is a
boundary within the text. The stretches that they delimit are the lines of the text, and joined they
give it back. -/
theorem starts_delimit_lines (text : List Char) :
    let starts := (ofText text).starts.toList
    starts = 0 :: Bytes.lineStarts 0 (bytes text) ∧ starts.Pairwise (· < ·) ∧
      (∀ place ∈ starts, IsBoundary text place ∧ place ≤ (bytes text).length) ∧
      (∀ place, 0 < place → (place ∈ starts ↔ Bytes.EndsLineAt (bytes text) place)) ∧
      Bytes.slices? (bytes text) starts = some ((splitLines text).map bytes) ∧
      (splitLines text).flatten = text := by
  intro starts
  have hstarts : starts = 0 :: Bytes.lineStarts 0 (bytes text) := toList_starts_ofText text
  have htabulate : starts = (tabulate 0 (splitLines text)).map Line.start := by
    rw [← toList_lines_eq_tabulate, ← Array.toList_map]
    rfl
  refine ⟨hstarts, pairwise_starts text, fun place hplace => ?_, fun place hpos => ?_, ?_,
    flatten_splitLines text⟩
  · rw [List.mem_iff_getElem?] at hplace
    obtain ⟨index, hindex⟩ := hplace
    rw [getElem?_starts, Option.map_eq_some_iff] at hindex
    obtain ⟨line, hline, rfl⟩ := hindex
    obtain ⟨front, htext, hstart⟩ := mem_lines_ofText hline
    have hboundary : IsBoundary text line.start := ⟨front, line.rest, htext, hstart.symm⟩
    rw [length_bytes]
    exact ⟨hboundary, hboundary.le_width⟩
  · rw [hstarts, List.mem_cons, or_iff_right (Nat.ne_of_gt hpos), Bytes.mem_lineStarts_iff]
    simp only [Nat.zero_add, exists_eq_left']
  · have hslices := Bytes.slices?_tabulate [] (splitLines text)
    rwa [List.nil_append, flatten_splitLines, width_nil, ← htabulate] at hslices

/-- Two carriage returns and a line feed end two lines, and behind the last line end a line starts
even if nothing is on it. -/
example : (ofText "é\r\r\n\n".toList).starts.toList = [0, 3, 5, 6] := by decide +kernel

end LineTable

end SourceOutline
