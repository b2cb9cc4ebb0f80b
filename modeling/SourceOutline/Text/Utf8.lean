/-!
# Text measured in bytes

Places in a text are counted in bytes of its UTF-8 form. Here a text is a list of characters, and
this module relates the two: `width` is the length in bytes, `dropBytes` skips a number of bytes,
and `charsWithin` counts the characters that lie whole within a number of bytes.

Skipping as many bytes as a first part has leaves the second (`dropBytes_width_append`).
-/

namespace SourceOutline.Text

/-- The number of bytes of a text in UTF-8. -/
def width : List Char → Nat
  | [] => 0
  | c :: rest => c.utf8Size + width rest

/-- The text after the given number of bytes. A character that straddles the boundary is
skipped whole. -/
def dropBytes : Nat → List Char → List Char
  | _, [] => []
  | bytes, c :: rest => if bytes = 0 then c :: rest else dropBytes (bytes - c.utf8Size) rest

/-- The number of characters at the start of the text that lie whole within the given number of
bytes. -/
def charsWithin : Nat → List Char → Nat
  | _, [] => 0
  | bytes, c :: rest =>
    if c.utf8Size ≤ bytes then charsWithin (bytes - c.utf8Size) rest + 1 else 0

/-- Whether a word stands in the text behind the given number of bytes. -/
def standsAt (word : List Char) (bytes : Nat) (text : List Char) : Bool :=
  word.isPrefixOf (dropBytes bytes text)

@[simp]
theorem width_nil : width [] = 0 := rfl

@[simp]
theorem width_cons (c : Char) (text : List Char) : width (c :: text) = c.utf8Size + width text :=
  rfl

@[simp]
theorem width_append (s t : List Char) : width (s ++ t) = width s + width t := by
  induction s with
  | nil => simp
  | cons c s ih => simp [ih, Nat.add_assoc]

@[simp]
theorem dropBytes_zero (text : List Char) : dropBytes 0 text = text := by
  cases text <;> simp [dropBytes]

/-- Skipping exactly the bytes of a first part leaves the second. -/
theorem dropBytes_width_append (s t : List Char) : dropBytes (width s) (s ++ t) = t := by
  induction s with
  | nil => simp
  | cons c s ih =>
    have hc : 0 < c.utf8Size := Char.utf8Size_pos c
    simp only [width_cons, List.cons_append, dropBytes]
    rw [if_neg (by omega), Nat.add_sub_cancel_left, ih]

/-- All characters of a text lie within its own width. -/
theorem charsWithin_width (text : List Char) : charsWithin (width text) text = text.length := by
  induction text with
  | nil => rfl
  | cons c text ih => simp [charsWithin, ih]

end SourceOutline.Text
