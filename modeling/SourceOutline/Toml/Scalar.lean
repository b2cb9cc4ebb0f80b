import SourceOutline.Decimal
import SourceOutline.Toml
import SourceOutline.Toml.Text

/-!
# Numbers, dates and truth values in TOML

A whole number has 64 bits with a sign. Its digits may be grouped by single underscores, and it has
no zero in front of others unless it is written in base two, eight or sixteen, where it has no sign
either. A number with a fraction or an exponent must not be too large for double precision, and a
date must be one of the calendar.
-/

namespace SourceOutline.Toml

open Toml.Parser

/-! ### Digits -/

/-- Reads the digits behind a first one, without the underscores between them. -/
def moreDigits (test : Char → Bool) : (rounds : Nat) → Parser (List Char)
  | 0 => pure []
  | rounds + 1 => do
    discard (accept? '_')
    let digit ← satisfy test
    pure (digit :: (← (moreDigits test rounds <|> pure [])))

/-- Reads digits, of which there is at least one, without the underscores between them. -/
def digits (test : Char → Bool) : Parser (List Char) := do
  let first ← satisfy test
  pure (first :: (← (moreDigits test (← roundsLeft) <|> pure [])))

/-- Reads a sign, and says whether it is a minus. -/
def sign : Parser Bool := do
  if ← accept? '-' then pure true
  else
    discard (accept? '+')
    pure false

/-- Reads decimal digits that do not start with a zero, unless it is the only one. -/
def wholeDigits : Parser (List Char) := do
  if ← accept? '0' then pure ['0'] else digits Char.isDigit

/-! ### Whole numbers -/

/-- The digits of a base. -/
def isDigitOf (base : Nat) (c : Char) : Bool :=
  match hexValue? [c] with
  | some value => value < base
  | none => false

/-- The value of digits in a base. -/
def valueOf (base : Nat) (digits : List Char) : Nat :=
  digits.foldl (fun value c => value * base + (hexValue? [c]).getD 0) 0

/-- Reads a whole number in base two, eight or sixteen. -/
def basedInteger (letter : Char) (base : Nat) : Parser Int := do
  exactly ['0', letter]
  pure (valueOf base (← digits (isDigitOf base)))

/-- Reads a whole number in base ten. -/
def decimalInteger : Parser Int := do
  let negative ← sign
  let size := Int.ofNat (valueOf 10 (← wholeDigits))
  pure (if negative then -size else size)

/-- Reads a whole number. -/
def integer : Parser Int := do
  let value ←
    (basedInteger 'x' 16 <|> basedInteger 'o' 8 <|> basedInteger 'b' 2 <|> decimalInteger)
  if Int64.minValue.toInt ≤ value && value ≤ Int64.maxValue.toInt then pure value else failure

/-! ### Other numbers -/

/-- Reads an exponent. -/
def exponent : Parser Int := do
  discard (satisfy fun c => c == 'e' || c == 'E')
  let negative ← sign
  let size := Int.ofNat (valueOf 10 (← digits Char.isDigit))
  pure (if negative then -size else size)

/-- Reads a number with a fraction, an exponent or both. -/
def finiteFloat : Parser Unit := do
  let negative ← sign
  let whole ← wholeDigits
  let fraction ← optional (do
    char '.'
    digits Char.isDigit)
  let power ← if fraction.isSome then optional exponent else some <$> exponent
  let fraction := fraction.getD []
  let value : Decimal :=
    ⟨valueOf 10 (whole ++ fraction), power.getD 0 - Int.ofNat fraction.length⟩
  if value.nearest.isNone && !negative then failure

/-- Reads an infinite number or one that is none. -/
def specialFloat : Parser Unit := do
  discard sign
  exactly ['i', 'n', 'f'] <|> exactly ['n', 'a', 'n']

/-! ### Dates and times -/

/-- Reads a number with a given number of digits. -/
def fixedNumber (count : Nat) : Parser Nat := do
  pure (valueOf 10 (← takeExactly Char.isDigit count))

/-- The number of days of a month. -/
def daysOf (year month : Nat) : Nat :=
  let leap := year % 4 = 0 && (year % 100 != 0 || year % 400 = 0)
  if month = 2 then (if leap then 29 else 28)
  else if month = 4 || month = 6 || month = 9 || month = 11 then 30
  else 31

/-- Reads a date. -/
def date : Parser Unit := do
  let year ← fixedNumber 4
  char '-'
  let month ← fixedNumber 2
  char '-'
  let day ← fixedNumber 2
  if month = 0 || 12 < month || day = 0 || daysOf year month < day then failure

/-- Reads hours and minutes. -/
def hourMinute : Parser Unit := do
  let hour ← fixedNumber 2
  char ':'
  let minute ← fixedNumber 2
  if 23 < hour || 59 < minute then failure

/-- Reads a time of day. -/
def time : Parser Unit := do
  hourMinute
  char ':'
  let second ← fixedNumber 2
  if 60 < second then failure
  if ← accept? '.' then
    discard (satisfy Char.isDigit)
    discard (takeAll Char.isDigit)

/-- Reads an offset from universal time. -/
def offset : Parser Unit := do
  match ← satisfy fun c => c == 'Z' || c == 'z' || c == '+' || c == '-' with
  | '+' | '-' => hourMinute
  | _ => pure ()

/-- Reads a date, a time, or both, and then perhaps an offset. -/
def datetime : Parser Unit :=
  (do
    date
    discard (optional (do
      discard (satisfy fun c => c == 'T' || c == 't' || c == ' ')
      time
      discard (optional offset)))) <|>
  time

/-! ### All of them -/

/-- Reads a value without parts other than a string. -/
def scalar : Parser Value := do
  match ← peek? with
  | some 't' => do
    exactly ['t', 'r', 'u', 'e']
    pure (.boolean true)
  | some 'f' => do
    exactly ['f', 'a', 'l', 's', 'e']
    pure (.boolean false)
  | _ =>
    match ← optional (textOf datetime) with
    | some text => pure (.datetime (String.ofList text))
    | none =>
      match ← optional (textOf (finiteFloat <|> specialFloat)) with
      | some text => pure (.float (String.ofList text))
      | none => pure (.integer (← integer))

end SourceOutline.Toml
