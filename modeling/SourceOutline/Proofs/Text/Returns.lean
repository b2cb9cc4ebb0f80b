import SourceOutline.Proofs.Text.Within

/-!
# Texts whose lines end in carriage returns and line feeds

`Text.withReturns` puts a carriage return in front of each line feed of a text. A place in the text
is then further behind by as many bytes as there are line feeds in front of it
(`Text.offsetWithReturns`), which is where the same part of the text ends
(`Text.offsetWithReturns_width_add`).

What stands behind a place is what stood there, with its own carriage returns
(`Text.dropBytes_withReturns`), so a word of a line stands there in both texts or in neither
(`Text.standsAt_withReturns`).
-/

namespace SourceOutline.Text

/-- The text with a carriage return in front of each line feed. -/
def withReturns (text : List Char) : List Char :=
  text.flatMap fun c => if c = '\n' then ['\r', '\n'] else [c]

/-- Where an offset of a text is when the line feeds have carriage returns in front: it is moved by
as many bytes as there are line feeds before it. -/
def offsetWithReturns (text : List Char) (offset : Nat) : Nat :=
  offset + (within offset text).count '\n'

variable {line : List Char}

/-! ### The text -/

theorem withReturns_append (s t : List Char) :
    withReturns (s ++ t) = withReturns s ++ withReturns t :=
  List.flatMap_append

theorem withReturns_cons {c : Char} (h : c ≠ '\n') (text : List Char) :
    withReturns (c :: text) = c :: withReturns text := by
  rw [withReturns, List.flatMap_cons, if_neg h, ← withReturns, List.singleton_append]

theorem withReturns_cons_lineFeed (text : List Char) :
    withReturns ('\n' :: text) = '\r' :: '\n' :: withReturns text := rfl

/-- A line is left as it is. -/
theorem withReturns_of_notMem (h : '\n' ∉ line) : withReturns line = line := by
  induction line with
  | nil => rfl
  | cons c line ih =>
    rw [List.mem_cons, not_or] at h
    rw [withReturns_cons (Ne.symm h.1), ih h.2]

/-- Up to a line feed there is a carriage return more. -/
theorem withReturns_append_lineFeed (h : '\n' ∉ line) (behind : List Char) :
    withReturns (line ++ '\n' :: behind) = line ++ ['\r'] ++ '\n' :: withReturns behind := by
  rw [withReturns_append, withReturns_of_notMem h, withReturns_cons_lineFeed, List.append_assoc,
    List.singleton_append]

theorem notMem_append_return (h : '\n' ∉ line) : '\n' ∉ line ++ ['\r'] := by
  rw [List.mem_append, List.mem_singleton]
  rintro (hmem | hfeed)
  · exact h hmem
  · exact absurd hfeed (by decide)

/-- There is one more byte for each line feed. -/
theorem width_withReturns (text : List Char) :
    width (withReturns text) = width text + text.count '\n' := by
  induction text with
  | nil => rfl
  | cons c text ih =>
    by_cases hc : c = '\n'
    · have hsize : Char.utf8Size '\r' = 1 := by decide
      have hcount : ('\n' :: text).count '\n' = text.count '\n' + 1 := List.count_cons_self
      rw [hc, withReturns_cons_lineFeed, hcount]
      simp only [width_cons, ih, hsize]
      omega
    · calc width (withReturns (c :: text))
        _ = c.utf8Size + (width text + text.count '\n') := by
          rw [withReturns_cons hc, width_cons, ih]
        _ = width (c :: text) + (c :: text).count '\n' := by
          rw [width_cons, List.count_cons_of_ne hc, Nat.add_assoc]

/-! ### Its places -/

/-- **A place behind a first part is behind that part with its carriage returns.** -/
theorem offsetWithReturns_width_add (front rest : List Char) (offset : Nat) :
    offsetWithReturns (front ++ rest) (width front + offset) =
      width (withReturns front) + offsetWithReturns rest offset := by
  rw [offsetWithReturns, offsetWithReturns, within_width_add, List.count_append, width_withReturns]
  omega

theorem offsetWithReturns_zero (text : List Char) : offsetWithReturns text 0 = 0 := by
  rw [offsetWithReturns, within, charsWithin_zero]
  rfl

/-- The end of a first part is moved to the end of that part with its carriage returns. -/
theorem offsetWithReturns_width (front rest : List Char) :
    offsetWithReturns (front ++ rest) (width front) = width (withReturns front) := by
  rw [← Nat.add_zero (width front), offsetWithReturns_width_add, offsetWithReturns_zero,
    Nat.add_zero]

/-- Behind a line feed the place is behind the carriage return, too. -/
theorem offsetWithReturns_append_lineFeed (h : '\n' ∉ line) (behind : List Char) (offset : Nat) :
    offsetWithReturns (line ++ '\n' :: behind) (width (line ++ ['\n']) + offset) =
      width (line ++ ['\r'] ++ ['\n']) + offsetWithReturns behind offset := by
  have hbreak : withReturns (line ++ ['\n']) = line ++ ['\r'] ++ ['\n'] :=
    withReturns_append_lineFeed h []
  rw [← hbreak, ← offsetWithReturns_width_add, List.append_assoc, List.singleton_append]

/-- Without line feeds all places are where they were. -/
theorem offsetWithReturns_of_notMem (h : '\n' ∉ line) (offset : Nat) :
    offsetWithReturns line offset = offset := by
  have hcount : (within offset line).count '\n' = 0 :=
    List.count_eq_zero_of_not_mem fun hmem => h (List.mem_of_mem_take hmem)
  rw [offsetWithReturns, hcount, Nat.add_zero]

/-- So are those up to the first line feed. -/
theorem offsetWithReturns_of_le (h : '\n' ∉ line) {offset : Nat} (hle : offset ≤ width line)
    (rest : List Char) : offsetWithReturns (line ++ rest) offset = offset := by
  rw [offsetWithReturns, within_append_of_le hle, ← offsetWithReturns,
    offsetWithReturns_of_notMem h]

/-! ### What stands there -/

/-- Skipping to a place leaves what it left in the text, with its carriage returns. -/
theorem dropBytes_withReturns (text : List Char) (offset : Nat) :
    dropBytes (offsetWithReturns text offset) (withReturns text) =
      withReturns (dropBytes offset text) := by
  induction text generalizing offset with
  | nil => rfl
  | cons c text ih =>
    rcases Nat.eq_zero_or_pos offset with rfl | hpos
    · rw [offsetWithReturns_zero, dropBytes_zero, dropBytes_zero]
    rcases Nat.lt_or_ge offset c.utf8Size with hlt | hge
    · -- The place is inside a character, which is then no line feed.
      have hc : '\n' ∉ [c] := by
        rw [List.mem_singleton]
        rintro rfl
        exact Nat.not_lt.mpr hpos hlt
      have hoffset : offsetWithReturns (c :: text) offset = offset :=
        offsetWithReturns_of_le hc (Nat.le_of_lt hlt) text
      rw [List.mem_singleton, eq_comm] at hc
      -- What it straddles is skipped whole, in both texts.
      have hskipped : ∀ text, dropBytes offset (c :: text) = text := by
        intro text
        rw [dropBytes, if_neg (Nat.ne_of_gt hpos), Nat.sub_eq_zero_of_le (Nat.le_of_lt hlt),
          dropBytes_zero]
      rw [hoffset, withReturns_cons hc, hskipped, hskipped]
    · obtain ⟨behind, rfl⟩ := Nat.exists_eq_add_of_le hge
      have hmoved : offsetWithReturns (c :: text) (c.utf8Size + behind) =
          width (withReturns [c]) + offsetWithReturns text behind :=
        offsetWithReturns_width_add [c] text behind
      have hskipped : dropBytes (c.utf8Size + behind) (c :: text) = dropBytes behind text :=
        dropBytes_width_add [c] behind text
      have htext : withReturns (c :: text) = withReturns [c] ++ withReturns text :=
        withReturns_append [c] text
      rw [hmoved, hskipped, htext, dropBytes_width_add, ih]

/-- A word of one line begins a text exactly if it does so with the carriage returns. -/
theorem isPrefixOf_withReturns {word : List Char} (hfeed : '\n' ∉ word) (hreturn : '\r' ∉ word)
    (text : List Char) : word.isPrefixOf (withReturns text) = word.isPrefixOf text := by
  induction word generalizing text with
  | nil => rfl
  | cons c word ih =>
    rw [List.mem_cons, not_or] at hfeed hreturn
    cases text with
    | nil => rfl
    | cons d text =>
      by_cases hd : d = '\n'
      · -- Neither the line feed begins the word nor the carriage return in front of it.
        have hc : (c == '\n') = false := beq_false_of_ne (Ne.symm hfeed.1)
        have hc' : (c == '\r') = false := beq_false_of_ne (Ne.symm hreturn.1)
        rw [hd, withReturns_cons_lineFeed]
        calc (c :: word).isPrefixOf ('\r' :: '\n' :: withReturns text)
            = false := by rw [List.isPrefixOf_cons_cons, hc', Bool.false_and]
          _ = (c :: word).isPrefixOf ('\n' :: text) := by
              rw [List.isPrefixOf_cons_cons, hc, Bool.false_and]
      · rw [withReturns_cons hd, List.isPrefixOf_cons_cons, List.isPrefixOf_cons_cons,
          ih hfeed.2 hreturn.2]

/-- **A word of one line stands at a place in both texts or in neither.** -/
theorem standsAt_withReturns {word : List Char} (hfeed : '\n' ∉ word) (hreturn : '\r' ∉ word)
    (text : List Char) (offset : Nat) :
    standsAt word (offsetWithReturns text offset) (withReturns text) =
      standsAt word offset text := by
  rw [standsAt, standsAt, dropBytes_withReturns, isPrefixOf_withReturns hfeed hreturn]

end SourceOutline.Text
