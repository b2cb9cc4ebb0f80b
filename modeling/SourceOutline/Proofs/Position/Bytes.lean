import SourceOutline.Proofs.Position.LineEnds
import SourceOutline.Proofs.Text.Bytes

/-!
# Positions from bytes, without a step that fails

A position can also be found from the bytes of a text alone (`Bytes.position?`): the line starts are
read off byte by byte, the offset is cut to the length and taken back to where a character begins, a
binary search finds the line, and the characters of the slice from its start are counted. Here every
step that could fail is checked, and gives nothing where it does: a step back in front of the first
byte, a search that misses in front of the first line, a line that is not there, and a slice whose
ends are out of order or inside a character.

**Main result** (`LineTable.position_eq_scan`): for every text and every offset no step fails, and
what the bytes give is the position that the table of lines gives. With the last boundary that is
not past the offset, its line is one more than the line ends up to there, and its column is one more
than the characters behind the last of them.
-/

namespace SourceOutline

open Text

/-! ### Steps that are checked -/

namespace Bytes

/-- The places behind line ends among bytes of which the first is at the offset. -/
def lineStarts (offset : Nat) : List UInt8 → List Nat
  | [] => []
  | 10 :: rest => (offset + 1) :: lineStarts (offset + 1) rest
  | 13 :: 10 :: rest => (offset + 2) :: lineStarts (offset + 2) rest
  | 13 :: rest => (offset + 1) :: lineStarts (offset + 1) rest
  | _ :: rest => lineStarts (offset + 1) rest

/-- Goes back byte by byte to where a character begins; in front of the first byte there is no
place to go back to. -/
def backToChar? (bytes : List UInt8) : (offset : Nat) → Option Nat
  | 0 => if isCharStart bytes 0 then some 0 else none
  | offset + 1 =>
    if isCharStart bytes (offset + 1) then some (offset + 1) else backToChar? bytes offset

/-- What a binary search in ascending numbers ends with: where the number is, or where it would have
to be put among them. -/
def searchAscending (numbers : List Nat) (number : Nat) : Except Nat Nat :=
  if number ∈ numbers then .ok (numbers.idxOf number)
  else .error (numbers.countP (· < number))

/-- The line that a place is on: the one that starts there, or the one in front of where it would be
put. There is none in front of the first. -/
def lineIndex? (starts : List Nat) (place : Nat) : Option Nat :=
  match searchAscending starts place with
  | .ok index => some index
  | .error 0 => none
  | .error (index + 1) => some index

/-- The bytes from one place to another, which have to be in order, and both where a character
begins or the bytes end. -/
def slice? (bytes : List UInt8) (start stop : Nat) : Option (List UInt8) :=
  if start ≤ stop ∧ isCharStart bytes start ∧ isCharStart bytes stop then
    some ((bytes.take stop).drop start)
  else none

/-- The position of an offset in the text with the given bytes, if no step fails. -/
def position? (bytes : List UInt8) (offset : Nat) : Option Position := do
  let starts := 0 :: lineStarts 0 bytes
  let place ← backToChar? bytes (min offset bytes.length)
  let index ← lineIndex? starts place
  let start ← starts[index]?
  let between ← slice? bytes start place
  some ⟨index + 1, between.countP beginsChar + 1⟩

/-! ### Line starts -/

/-- Bytes that end no line are passed over. -/
private theorem lineStarts_append {front : List UInt8}
    (h : ∀ byte ∈ front, byte ≠ 10 ∧ byte ≠ 13) (offset : Nat) (rest : List UInt8) :
    lineStarts offset (front ++ rest) = lineStarts (offset + front.length) rest := by
  induction front generalizing offset with
  | nil => rfl
  | cons byte front ih =>
    rw [List.forall_mem_cons] at h
    rw [List.cons_append, lineStarts, ih h.2, List.length_cons]
    · congr 1
      omega
    · exact h.1.1
    · exact fun _ hbyte _ => h.1.2 hbyte
    · exact h.1.2

/-- The bytes of a character that ends no line do not end one. -/
private theorem ne_of_mem_utf8EncodeChar {c : Char} (hfeed : c ≠ '\n') (hreturn : c ≠ '\r') :
    ∀ byte ∈ String.utf8EncodeChar c, byte ≠ 10 ∧ byte ≠ 13 := by
  obtain ⟨first, others, h⟩ := exists_isEncoding c
  intro byte hbyte
  rcases h.eq_or_le_of_mem hbyte with heq | hle
  · refine ⟨?_, ?_⟩
    · rintro rfl
      exact hfeed (Char.toNat_inj.mp heq.symm)
    · rintro rfl
      exact hreturn (Char.toNat_inj.mp heq.symm)
  · refine ⟨?_, ?_⟩ <;>
    · rintro rfl
      exact absurd hle (by decide)

/-- Bytes begin with that of a line feed only if the text does. -/
private theorem head?_bytes_eq_feed {text : List Char} (h : (bytes text).head? = some 10) :
    text.head? = some '\n' := by
  cases text with
  | nil => exact absurd h.symm (Option.some_ne_none 10)
  | cons c text =>
    obtain ⟨first, others, hencoding⟩ := exists_isEncoding c
    rw [hencoding.bytes_cons, List.head?_cons, Option.some_inj] at h
    subst h
    rcases hencoding.ascii with ⟨heq, -⟩ | ⟨hle, -⟩
    · have hc : c = '\n' := Char.toNat_inj.mp heq.symm
      rw [List.head?_cons, hc]
    · exact absurd hle (by decide)

/-- **The bytes have line starts where the text has them.** -/
theorem lineStarts_bytes (offset : Nat) (text : List Char) :
    lineStarts offset (bytes text) = (LineTable.linesBehind offset text).map Line.start := by
  fun_induction LineTable.linesBehind offset text with
  | case1 offset => rfl
  | case2 offset rest ih =>
    rw [List.map_cons, ← ih]
    rfl
  | case3 offset rest ih =>
    rw [List.map_cons, ← ih]
    rfl
  | case4 offset rest hrest ih =>
    have hbytes : bytes ('\r' :: rest) = 13 :: bytes rest := rfl
    rw [List.map_cons, ← ih, hbytes, lineStarts]
    intro more hmore
    have hfeed : rest.head? = some '\n' := head?_bytes_eq_feed (by rw [hmore]; rfl)
    obtain ⟨behind, rfl⟩ := List.head?_eq_some_iff.mp hfeed
    exact hrest behind rfl
  | case5 offset c rest hfeed hboth hreturn ih =>
    have hbytes : bytes (c :: rest) = String.utf8EncodeChar c ++ bytes rest := rfl
    rw [← ih, hbytes, lineStarts_append (ne_of_mem_utf8EncodeChar hfeed hreturn),
      String.length_utf8EncodeChar]

/-! ### The other steps -/

/-- Going back ends at the last place where a character begins. -/
theorem backToChar?_eq {bytes : List UInt8} {offset place : Nat}
    (h : IsGreatest {place | isCharStart bytes place = true ∧ place ≤ offset} place) :
    backToChar? bytes offset = some place := by
  obtain ⟨⟨hstart, hle⟩, hlast⟩ := h
  induction offset with
  | zero =>
    obtain rfl := Nat.le_zero.mp hle
    rw [backToChar?, if_pos hstart]
  | succ offset ih =>
    rw [backToChar?]
    split
    next hnext => exact congrArg some (Nat.le_antisymm (hlast ⟨hnext, Nat.le_refl _⟩) hle)
    next hnext =>
      have hle' : place ≤ offset := by
        refine Nat.le_of_lt_succ (Nat.lt_of_le_of_ne hle ?_)
        rintro rfl
        exact hnext hstart
      exact ih (fun other hother => hlast ⟨hother.1, Nat.le_succ_of_le hother.2⟩) hle'

/-- A search among ascending numbers, of which `start` is the last one up to `place`. -/
private theorem searchAscending_append {front behind : List Nat} {start place : Nat}
    (hfront : ∀ other ∈ front, other < start) (hle : start ≤ place)
    (hbehind : ∀ other ∈ behind, place < other) :
    searchAscending (front ++ start :: behind) place =
      if start = place then .ok front.length else .error (front.length + 1) := by
  have hnotfront : place ∉ front := fun hmem => Nat.not_lt_of_le hle (hfront place hmem)
  rw [searchAscending]
  rcases Nat.lt_or_eq_of_le hle with hlt | rfl
  · have hmem : place ∉ front ++ start :: behind := by
      rw [List.mem_append, List.mem_cons, not_or, not_or]
      exact ⟨hnotfront, Nat.ne_of_gt hlt, fun hmem => Nat.lt_irrefl _ (hbehind place hmem)⟩
    have hall : front.countP (· < place) = front.length :=
      List.countP_eq_length.mpr fun other hother =>
        decide_eq_true (Nat.lt_trans (hfront other hother) hlt)
    have hnone : behind.countP (· < place) = 0 :=
      List.countP_eq_zero.mpr fun other hother h =>
        Nat.lt_asymm (hbehind other hother) (of_decide_eq_true h)
    have hcount : (front ++ start :: behind).countP (· < place) = front.length + 1 := by
      rw [List.countP_append, List.countP_cons, if_pos (decide_eq_true hlt), hall, hnone]
    rw [if_neg hmem, if_neg (Nat.ne_of_lt hlt), hcount]
  · have hmem : start ∈ front ++ start :: behind := List.mem_append_right _ List.mem_cons_self
    have hindex : (front ++ start :: behind).idxOf start = front.length := by
      rw [List.idxOf_append, if_neg hnotfront, List.idxOf_cons_self, Nat.zero_add]
    rw [if_pos hmem, if_pos rfl, hindex]

/-- The search does not miss in front of the first line if a line starts by the place, and finds the
last such line. -/
theorem lineIndex?_eq {starts : List Nat} (hascending : starts.Pairwise (· < ·))
    {index start place : Nat} (hstart : starts[index]? = some start) (hle : start ≤ place)
    (hnext : ∀ next, starts[index + 1]? = some next → place < next) :
    lineIndex? starts place = some index := by
  obtain ⟨hindex, rfl⟩ := List.getElem?_eq_some_iff.mp hstart
  have hsplit : starts = starts.take index ++ starts[index] :: starts.drop (index + 1) := by
    rw [← List.drop_eq_getElem_cons hindex, List.take_append_drop]
  rw [hsplit, List.pairwise_append, List.pairwise_cons] at hascending
  obtain ⟨-, ⟨-, hascending⟩, hfront⟩ := hascending
  have hpast : ∀ other ∈ starts.drop (index + 1), place < other := by
    rw [← List.head?_drop] at hnext
    cases hbehind : starts.drop (index + 1) with
    | nil => exact fun _ hother => absurd hother List.not_mem_nil
    | cons next behind =>
      rw [hbehind] at hnext hascending
      have hplace := hnext next rfl
      rw [List.forall_mem_cons]
      exact ⟨hplace, fun other hother =>
        Nat.lt_trans hplace ((List.pairwise_cons.mp hascending).1 other hother)⟩
  have hsearch := searchAscending_append
    (fun other hother => hfront other hother _ List.mem_cons_self) hle hpast
  rw [← hsplit, List.length_take_of_le (Nat.le_of_lt hindex)] at hsearch
  rw [lineIndex?, hsearch]
  by_cases heq : starts[index] = place
  · rw [if_pos heq]
  · rw [if_neg heq]

/-- The bytes between two boundaries are those of the text between them. -/
theorem slice?_bytes (before between back : List Char) :
    slice? (bytes (before ++ between ++ back)) (width before) (width (before ++ between)) =
      some (bytes between) := by
  have hle : width before ≤ width (before ++ between) := by
    rw [width_append]
    exact Nat.le_add_right _ _
  have hstart : isCharStart (bytes (before ++ between ++ back)) (width before) = true :=
    isCharStart_bytes_iff.mpr ⟨before, between ++ back, List.append_assoc _ _ _, rfl⟩
  have hstop : isCharStart (bytes (before ++ between ++ back)) (width (before ++ between)) = true :=
    isCharStart_bytes_iff.mpr ⟨before ++ between, back, rfl, rfl⟩
  have htake : (bytes (before ++ between ++ back)).take (width (before ++ between)) =
      bytes (before ++ between) := by
    rw [bytes_append, ← length_bytes, List.take_left]
  have hdrop : (bytes (before ++ between)).drop (width before) = bytes between := by
    rw [bytes_append, ← length_bytes, List.drop_left]
  rw [slice?, if_pos ⟨hle, hstart, hstop⟩, htake, hdrop]

end Bytes

namespace LineTable

/-- The line starts among the bytes of a text are those of its table. -/
theorem toList_starts_ofText (text : List Char) :
    (ofText text).starts.toList = 0 :: Bytes.lineStarts 0 (bytes text) := by
  rw [starts, Array.toList_map, toList_lines_ofText, Bytes.lineStarts_bytes]
  rfl

/-- Among the starts of a table the line of a place is found. -/
theorem lineIndex?_starts (text : List Char) (place : Nat) :
    Bytes.lineIndex? (ofText text).starts.toList place = some ((ofText text).lineOf place) := by
  obtain ⟨hstarts, hnext⟩ := startsBy_lineOf text place
  rw [startsBy] at hstarts hnext
  cases hentry : (ofText text).lines[(ofText text).lineOf place]? with
  | none =>
    rw [hentry] at hstarts
    exact absurd hstarts Bool.noConfusion
  | some entry =>
    rw [hentry] at hstarts
    have hstart : (ofText text).starts.toList[(ofText text).lineOf place]? = some entry.start := by
      rw [getElem?_starts, hentry, Option.map_some]
    refine Bytes.lineIndex?_eq (pairwise_starts text) hstart (of_decide_eq_true hstarts)
      fun next hother => ?_
    rw [getElem?_starts, Option.map_eq_some_iff] at hother
    obtain ⟨entry', hentry', rfl⟩ := hother
    rw [hentry'] at hnext
    exact Nat.lt_of_not_le (of_decide_eq_false hnext)

/-- **No step fails on the bytes of a text**, and they give the position that the table gives. -/
theorem position?_bytes (text : List Char) (offset : Nat) :
    Bytes.position? (bytes text) offset = some ((ofText text).position offset) := by
  have hplace : Bytes.backToChar? (bytes text) (min offset (bytes text).length) =
      some (width (within offset text)) := by
    refine Bytes.backToChar?_eq ?_
    simp only [isCharStart_bytes_iff, length_bytes]
    exact isGreatest_width_within_min offset text
  rw [← position_width_within text offset]
  -- From here on only the parts of the text count, the one in front of the place and the other.
  have htext := within_append_drop offset text
  generalize within offset text = front at hplace htext ⊢
  generalize text.drop (charsWithin offset text) = back at htext
  obtain ⟨before, between, rfl, hentry, hposition⟩ := position_width front back
  have hslice := Bytes.slice?_bytes before between back
  rw [htext] at hentry hposition hslice
  have hindex := lineIndex?_starts text (width (before ++ between))
  have hstart : (ofText text).starts.toList[(ofText text).lineOf (width (before ++ between))]? =
      some (width before) := by
    rw [getElem?_starts, hentry, Option.map_some]
  rw [toList_starts_ofText] at hstart hindex
  simp only [hposition, Bytes.position?, hplace, hindex, hstart, hslice, countP_beginsChar_bytes,
    Option.bind_eq_bind, Option.bind_some]

/-- **Every offset has a position, and it is the one that reading the text finds.** Whatever the
offset is, it stands for the last boundary of the text that is not past it, with some characters in
front. On the bytes of the text no step of the search for the position fails, and it comes to the
position that the table of lines gives: its line is one more than the line ends behind those
characters or among them, and its column is one more than the characters behind the last of these
line ends. -/
theorem position_eq_scan (text : List Char) (offset : Nat) :
    ∃ front back, text = front ++ back ∧
      IsGreatest {place | IsBoundary text place ∧ place ≤ min offset (width text)}
        (width front) ∧
      Bytes.position? (bytes text) offset = some ((ofText text).position offset) ∧
      (ofText text).position offset =
        let ends := (lineEnds text).filter (· ≤ front.length)
        ⟨1 + ends.length, 1 + (front.length - ends.getLastD 0)⟩ := by
  refine ⟨within offset text, text.drop (charsWithin offset text),
    (within_append_drop offset text).symm, isGreatest_width_within_min offset text,
    position?_bytes text offset, ?_⟩
  rw [length_within]
  exact position_eq_positionBehind text offset

/-- Between the two characters that end a line, and inside a character. -/
example : (ofText "a\r\né".toList).position 2 = ⟨1, 3⟩ ∧
    (ofText "a\r\né".toList).position 4 = ⟨2, 1⟩ := by decide

end LineTable

end SourceOutline
