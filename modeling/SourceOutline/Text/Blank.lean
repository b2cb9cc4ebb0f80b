/-!
# Blank characters

White space in the sense of Unicode's `White_Space` property, and trimming text of it. It is a
larger set than the blanks of a source file's own grammar, which are the space, the tab and the
form feed: it decides what an empty expression in a format string is, where the code on a line
begins, and what surrounds a request line.

Trimming leaves nothing exactly where there are only blanks (`trim_eq_nil_iff`). Otherwise it takes
the blanks up to the first and behind the last character that is none, and leaves what is between
these two (`trim_between`).
-/

namespace SourceOutline.Text

/-- The characters with the property `White_Space`. -/
def isBlank (c : Char) : Bool :=
  let code := c.toNat
  (9 ≤ code && code ≤ 13) || code == 0x20 || code == 0x85 || code == 0xA0 || code == 0x1680 ||
    (0x2000 ≤ code && code ≤ 0x200A) || code == 0x2028 || code == 0x2029 || code == 0x202F ||
    code == 0x205F || code == 0x3000

/-- Text without the blanks it begins with. -/
def trimStart (text : List Char) : List Char :=
  text.dropWhile isBlank

/-- Text without the blanks it ends with. -/
def trimEnd (text : List Char) : List Char :=
  (text.reverse.dropWhile isBlank).reverse

/-- Text without the blanks on either side. -/
def trim (text : List Char) : List Char :=
  trimEnd (trimStart text)

/-- Whether the text holds nothing but blanks. -/
def allBlank (text : List Char) : Bool :=
  text.all isBlank

/-- Trimming leaves nothing exactly when there was nothing but blanks. -/
theorem trimStart_eq_nil_iff {text : List Char} : trimStart text = [] ↔ allBlank text = true := by
  induction text with
  | nil => simp [trimStart, allBlank]
  | cons c text ih =>
    by_cases hc : isBlank c = true
    · rw [trimStart, List.dropWhile_cons_of_pos hc, allBlank, List.all_cons, hc, Bool.true_and]
      exact ih
    · simp [trimStart, allBlank, hc]

theorem trimEnd_eq_nil_iff {text : List Char} : trimEnd text = [] ↔ allBlank text = true := by
  calc trimEnd text = []
    _ ↔ trimStart text.reverse = [] := List.reverse_eq_nil_iff
    _ ↔ allBlank text.reverse = true := trimStart_eq_nil_iff
    _ ↔ allBlank text = true := by rw [allBlank, List.all_reverse, allBlank]

/-- What is left by trimming the start is blank only if all of the text is. -/
theorem allBlank_trimStart (text : List Char) : allBlank (trimStart text) = allBlank text := by
  have hsplit : text.takeWhile isBlank ++ trimStart text = text := List.takeWhile_append_dropWhile
  calc allBlank (trimStart text)
    _ = ((text.takeWhile isBlank).all isBlank && allBlank (trimStart text)) := by
      rw [List.all_takeWhile, Bool.true_and]
    _ = allBlank (text.takeWhile isBlank ++ trimStart text) := List.all_append.symm
    _ = allBlank text := by rw [hsplit]

/-- Trimming both sides leaves nothing exactly when there was nothing but blanks. -/
theorem trim_eq_nil_iff {text : List Char} : trim text = [] ↔ allBlank text = true := by
  rw [trim, trimEnd_eq_nil_iff, allBlank_trimStart]

variable {blanks : List Char} {c : Char}

/-- Trimming takes exactly the blanks in front of a character that is none. -/
theorem trimStart_append_cons {rest : List Char} (hblanks : allBlank blanks = true)
    (hc : isBlank c = false) : trimStart (blanks ++ c :: rest) = c :: rest := by
  rw [allBlank, List.all_eq_true] at hblanks
  rw [trimStart, List.dropWhile_append_of_pos hblanks, List.dropWhile_cons_of_neg (by simp [hc])]

/-- Trimming takes exactly the blanks behind a character that is none. -/
theorem trimEnd_append_cons (front : List Char) (hblanks : allBlank blanks = true)
    (hc : isBlank c = false) : trimEnd (front ++ c :: blanks) = front ++ [c] := by
  have hreverse : allBlank blanks.reverse = true := by
    rw [allBlank, List.all_reverse]
    exact hblanks
  have hback : (front ++ c :: blanks).reverse = blanks.reverse ++ c :: front.reverse := by
    rw [List.reverse_append, List.reverse_cons, List.append_assoc, List.singleton_append]
  calc trimEnd (front ++ c :: blanks)
    _ = (trimStart (blanks.reverse ++ c :: front.reverse)).reverse := by
      rw [trimEnd, hback, trimStart]
    _ = (c :: front.reverse).reverse := by rw [trimStart_append_cons hreverse hc]
    _ = front ++ [c] := by rw [List.reverse_cons, List.reverse_reverse]

/-- **Trimming leaves what begins and ends with characters that are no blanks.** -/
theorem trim_between {before behind : List Char} {first last : Char}
    (hbefore : allBlank before = true) (hbehind : allBlank behind = true)
    (hfirst : isBlank first = false) (hlast : isBlank last = false) (middle : List Char) :
    trim (before ++ first :: (middle ++ last :: behind)) = first :: (middle ++ [last]) := by
  rw [trim, trimStart_append_cons hbefore hfirst, ← List.cons_append,
    trimEnd_append_cons _ hbehind hlast, List.cons_append]

end SourceOutline.Text
