import SourceOutline.Exchange
import SourceOutline.Proofs.Json.OneLine
import SourceOutline.Proofs.Text.Bytes

/-!
# Lines among bytes

What someone sends is lines with a line feed behind each, and perhaps a last one without
(`Frames`). All bytes are lines in exactly one way, which is how they are cut, in whatever pieces
they come (`frames_iff`, `cutLines_append`).

**Main result** (`frames_sentBytes`): replies that are each on one line are framed again, so whoever
cuts what is sent at its line feeds gets exactly the replies.
-/

namespace SourceOutline.Exchange

open Json

/-- The bytes of pieces. -/
def joined (pieces : List ByteArray) : List UInt8 :=
  pieces.flatMap fun bytes => bytes.data.toList

/-- Whether bytes are those of lines with a line feed behind each. A last line that is not empty may
do without. -/
inductive Frames : List ByteArray → List UInt8 → Prop
  | nil : Frames [] []
  | last {line : ByteArray} (hline : 10 ∉ line.data.toList) (hne : line ≠ .empty) :
    Frames [line] line.data.toList
  | cons {line : ByteArray} {lines : List ByteArray} {bytes : List UInt8}
    (hline : 10 ∉ line.data.toList) (h : Frames lines bytes) :
    Frames (line :: lines) (line.data.toList ++ 10 :: bytes)

/-! ### Cutting -/

private theorem ext_toList {a b : ByteArray} (h : a.data.toList = b.data.toList) : a = b :=
  ByteArray.ext (Array.toList_inj.mp h)

private theorem toList_push (a : ByteArray) (byte : UInt8) :
    (a.push byte).data.toList = a.data.toList ++ [byte] := by
  rw [ByteArray.data_push, Array.toList_push]

/-- Bytes without a line feed are added to the line they belong to. -/
theorem cutLines_of_notMem (before : ByteArray) {line : ByteArray} {front : List UInt8}
    (h : 10 ∉ front) (hline : line.data.toList = before.data.toList ++ front) (rest : List UInt8) :
    cutLines before (front ++ rest) = cutLines line rest := by
  induction front generalizing before with
  | nil =>
    rw [List.append_nil] at hline
    rw [ext_toList hline, List.nil_append]
  | cons byte front ih =>
    have hbyte : byte ≠ 10 := (List.ne_of_not_mem_cons h).symm
    rw [List.cons_append, cutLines, if_neg hbyte]
    refine ih (before.push byte) (List.not_mem_of_not_mem_cons h) ?_
    rw [hline, toList_push, List.append_assoc, List.singleton_append]

/-- A line feed ends a line. -/
theorem cutLines_feed (before : ByteArray) (rest : List UInt8) :
    cutLines before (10 :: rest) =
      ([before] ++ (cutLines .empty rest).1, (cutLines .empty rest).2) := by
  rw [cutLines, if_pos rfl]
  rfl

/-- **Bytes are cut alike in one piece and in two.** -/
theorem cutLines_append (before : ByteArray) (front rest : List UInt8) :
    cutLines before (front ++ rest) =
      ((cutLines before front).1 ++ (cutLines (cutLines before front).2 rest).1,
        (cutLines (cutLines before front).2 rest).2) := by
  induction front generalizing before with
  | nil => rfl
  | cons byte front ih =>
    by_cases hbyte : byte = 10
    · subst hbyte
      rw [List.cons_append, cutLines_feed, cutLines_feed, ih]
      rfl
    · rw [List.cons_append, cutLines, cutLines, if_neg hbyte, if_neg hbyte, ih]

/-- All lines of some bytes, the last one included if there is any of it. -/
def allLines (cut : List ByteArray × ByteArray) : List ByteArray :=
  if cut.2.isEmpty then cut.1 else cut.1 ++ [cut.2]

theorem allLines_append (lines : List ByteArray) (cut : List ByteArray × ByteArray) :
    allLines (lines ++ cut.1, cut.2) = lines ++ allLines cut := by
  unfold allLines
  dsimp only
  split
  · rfl
  · rw [List.append_assoc]

theorem isEmpty_eq_false {line : ByteArray} (h : line ≠ .empty) : line.isEmpty = false := by
  rw [ByteArray.isEmpty, beq_eq_false_iff_ne]
  intro hsize
  exact h (ByteArray.size_eq_zero_iff.mp hsize)

/-- The bytes that come complete the line that is there. -/
private theorem frames_allLines {before : ByteArray} (h : 10 ∉ before.data.toList)
    (bytes : List UInt8) :
    Frames (allLines (cutLines before bytes)) (before.data.toList ++ bytes) := by
  induction bytes generalizing before with
  | nil =>
    rw [List.append_nil]
    by_cases hne : before = .empty
    · subst hne
      exact .nil
    · rw [cutLines, allLines, if_neg (by simp [isEmpty_eq_false hne])]
      exact .last h hne
  | cons byte bytes ih =>
    by_cases hbyte : byte = 10
    · subst hbyte
      rw [cutLines_feed, allLines_append [_]]
      exact .cons h (ih List.not_mem_nil)
    · -- The byte belongs to the line, which still has no line feed in it.
      rw [cutLines, if_neg hbyte]
      have hpush : 10 ∉ (before.push byte).data.toList := by
        rw [toList_push]
        simp [h, Ne.symm hbyte]
      have hframes := ih hpush
      rwa [toList_push, List.append_assoc, List.singleton_append] at hframes

/-- **All bytes are lines in exactly one way**: as they are cut. -/
theorem frames_iff {lines : List ByteArray} {bytes : List UInt8} :
    Frames lines bytes ↔ allLines (cutLines .empty bytes) = lines := by
  constructor
  · intro h
    induction h with
    | nil => rfl
    | @last line hline hne =>
      have hcut := cutLines_of_notMem .empty hline (List.nil_append _).symm []
      rw [List.append_nil] at hcut
      rw [hcut, cutLines, allLines, if_neg (by simp [isEmpty_eq_false hne])]
      rfl
    | @cons line lines bytes hline _ ih =>
      rw [cutLines_of_notMem .empty hline (List.nil_append _).symm, cutLines_feed,
        allLines_append [_], ih]
      rfl
  · rintro rfl
    exact frames_allLines List.not_mem_nil bytes

/-! ### Replies among bytes -/

/-- No byte of a text without line feeds is one. -/
theorem notMem_toUTF8 {text : String} (h : '\n' ∉ text.toList) : 10 ∉ text.toUTF8.data.toList := by
  rw [Text.toList_toUTF8]
  intro hmem
  obtain ⟨c, hc, hbyte⟩ := List.mem_flatMap.mp hmem
  obtain ⟨first, others, hencoding⟩ := Text.exists_isEncoding c
  rcases hencoding.eq_or_le_of_mem hbyte with heq | hle
  · have hfeed : c = '\n' := Char.toNat_inj.mp heq.symm
    exact h (hfeed ▸ hc)
  · exact absurd hle (by decide)

theorem notMem_toUTF8_of_oneLine {text : String} (h : OneLine text.toList) :
    10 ∉ text.toUTF8.data.toList :=
  notMem_toUTF8 fun hfeed => absurd (h _ hfeed) (by decide)

theorem toList_sentBytes (text : String) :
    (sentBytes text).data.toList = text.toUTF8.data.toList ++ [10] := by
  rw [sentBytes, Text.toList_toUTF8, Text.toList_toUTF8, String.toList_append, Text.bytes_append]
  rfl

/-- **What is sent is cut into the replies**, if each of them is on one line. -/
theorem frames_sentBytes {texts : List String} (h : ∀ text ∈ texts, OneLine text.toList) :
    Frames (texts.map String.toUTF8) (joined (texts.map sentBytes)) := by
  induction texts with
  | nil => exact .nil
  | cons text texts ih =>
    rw [List.map_cons, List.map_cons, joined, List.flatMap_cons, toList_sentBytes,
      List.append_assoc]
    exact .cons (notMem_toUTF8_of_oneLine (h text List.mem_cons_self))
      (ih fun other hother => h other (List.mem_cons_of_mem _ hother))

end SourceOutline.Exchange
