import SourceOutline.Token.Cursor
import SourceOutline.Text.Identifier
import SourceOutline.Fault

/-!
# Numbers

How a number is read: with a radix (`0x1f`, `0o17`, `0b11`), whole, with a point or an exponent,
and any but the first kind as an imaginary number, with a `j` behind it. A single underscore may
stand between two digits.

A number is taken as far as it goes. What follows directly is another token, so that `1_` is the
number `1` and the name `_`.
-/

namespace SourceOutline

open Text

namespace Number

/-- The value of a digit in any radix up to sixteen. -/
def digitValue? (c : Char) : Option Nat :=
  if '0' ≤ c && c ≤ '9' then some (c.toNat - '0'.toNat)
  else if 'a' ≤ c && c ≤ 'f' then some (c.toNat - 'a'.toNat + 10)
  else if 'A' ≤ c && c ≤ 'F' then some (c.toNat - 'A'.toNat + 10)
  else none

/-- Whether the character is a digit of the radix. -/
def isDigitOf (radix : Nat) (c : Char) : Bool :=
  match digitValue? c with
  | some value => value < radix
  | none => false

/-- The natural number with the given digits, most significant first. -/
def ofDigits (radix : Nat) (digits : List Char) : Nat :=
  digits.foldl (fun value c => value * radix + (digitValue? c).getD 0) 0

/-- Takes digits, and an underscore where a digit follows it. -/
def takeDigits (radix offset : Nat) : List Glyph → List Char × Cursor
  | [] => ([], ⟨offset, []⟩)
  | glyph :: rest =>
    if isDigitOf radix glyph.char then
      let (digits, next) := takeDigits radix (offset + glyph.bytes) rest
      (glyph.char :: digits, next)
    else if glyph.char = '_' && (rest.head?.map fun g => isDigitOf radix g.char).getD false then
      takeDigits radix (offset + glyph.bytes) rest
    else ([], ⟨offset, glyph :: rest⟩)

/-- The digits from a place on. -/
def digits (radix : Nat) (cursor : Cursor) : List Char × Cursor :=
  takeDigits radix cursor.offset cursor.rest

/-- The radix that the letter after a zero stands for. -/
def radixOfLetter? (c : Char) : Option Nat :=
  match c.toLower with
  | 'x' => some 16
  | 'o' => some 8
  | 'b' => some 2
  | _ => none

/-- Whether a complete exponent stands here: the letter, a sign or none, and a digit. -/
def atExponent (cursor : Cursor) : Bool :=
  match cursor.peek?, cursor.second?, cursor.third? with
  | some 'e', some c, d | some 'E', some c, d =>
    Identifier.isDigit c || ((c == '+' || c == '-') && (d.map Identifier.isDigit).getD false)
  | _, _, _ => false

/-- The point and the digits after it, if there is a point. -/
def fraction (cursor : Cursor) : Except Fault (List Char × Cursor) :=
  if cursor.peek? = some '.' then
    if cursor.second? = some '_' then throw ⟨.strayUnderscore, cursor.offset⟩
    else pure (digits 10 (cursor.advance 1))
  else pure ([], cursor)

/-- The exponent, if there is one. A letter without digits behind it makes the number invalid. -/
def exponent (cursor : Cursor) : Except Fault (Int × Cursor) := do
  match cursor.peek? with
  | some 'e' | some 'E' =>
    if cursor.second? = some '_' then throw ⟨.strayUnderscore, cursor.offset⟩
    let signed := cursor.advance 1
    let hasSign := signed.peek? = some '-' || signed.peek? = some '+'
    if hasSign && signed.second? = some '_' then throw ⟨.strayUnderscore, signed.offset⟩
    let (power, next) := digits 10 (if hasSign then signed.advance 1 else signed)
    if power.isEmpty then throw ⟨.badDecimal, next.offset⟩
    let size := Int.ofNat (ofDigits 10 power)
    pure (if signed.peek? = some '-' then -size else size, next)
  | _ => pure (0, cursor)

/-- Whether the letter of an imaginary number stands here. -/
def atImaginary (cursor : Cursor) : Bool :=
  cursor.peek? = some 'j' || cursor.peek? = some 'J'

/-- A number with a radix, whose letter is the next character but one. -/
def scanRadix (radix : Nat) (cursor : Cursor) : Except Fault (Token.Kind × Cursor) :=
  match digits radix (cursor.advance 2) with
  | ([], _) => throw ⟨.noDigits, cursor.offset⟩
  | (found, next) => pure (.int (ofDigits radix found), next)

/-- A number without radix. -/
def scanDecimal (cursor : Cursor) : Except Fault (Token.Kind × Cursor) := do
  let (whole, afterWhole) := digits 10 cursor
  if afterWhole.peek? = some '.' || atExponent afterWhole then
    let (part, afterPart) ← fraction afterWhole
    let (power, next) ← exponent afterPart
    let value : Decimal := ⟨ofDigits 10 (whole ++ part), power - part.length⟩
    if atImaginary next then pure (.complex value, next.advance 1) else pure (.float value, next)
  else if atImaginary afterWhole then
    pure (.complex ⟨ofDigits 10 whole, 0⟩, afterWhole.advance 1)
  else
    let value := ofDigits 10 whole
    if cursor.peek? = some '0' && value != 0 then throw ⟨.leadingZero, afterWhole.offset⟩
    pure (.int value, afterWhole)

/-- The number that begins here. -/
def scan (cursor : Cursor) : Except Fault (Token.Kind × Cursor) :=
  match cursor.peek?, cursor.second?.bind radixOfLetter? with
  | some '0', some radix => scanRadix radix cursor
  | _, _ => scanDecimal cursor

end Number

end SourceOutline
