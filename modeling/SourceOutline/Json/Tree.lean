import SourceOutline.Json.Fault
import SourceOutline.Text.Utf8

/-!
# JSON text as it was written

A `Tree` is JSON text read as far as it goes, with the places of its values. A text that breaks off
is read up to there, and the tree ends in the `Cut` where it does: so whoever wants a certain shape
sees what comes first, a value of another shape or the place where the text is no JSON any more.

A value that no one looks at may be wrong in ways that do not keep the rest from being read: a
number out of range, or an escape for half a character. Such a value is a leaf with a fault. And
where a text breaks off, a value that is passed over may have another fault than one that is read,
so a cut has two.
-/

namespace SourceOutline.Json

open Text

/-- Where a text breaks off: the fault for one who reads the value there, and for one who passes
over it. -/
structure Cut where
  read : Fault
  skipped : Fault
  deriving Repr, DecidableEq

/-- The cut that is the same for both. -/
def Cut.same (problem : Problem) (bytes : Nat) : Cut :=
  ⟨⟨problem, bytes⟩, ⟨problem, bytes⟩⟩

/-- How an array or an object ends. -/
inductive Closing where
  /-- By its bracket, which ends here. -/
  | closed (stop : Nat)
  | cut (cut : Cut)
  deriving Repr, DecidableEq

mutual

/-- A value as it was written. In each case `peek` is the number of bytes up to and with the first
byte of the value. -/
inductive Tree where
  /-- A value without parts, or what is wrong with it, and where it ends. -/
  | leaf (peek : Nat) (value : Except Fault Json) (stop : Nat)
  | array (peek : Nat) (items : List Tree) (closing : Closing)
  /-- An object. If something other than a key stands where a key must, it is `strayKey`. -/
  | object (peek : Nat) (members : List Member) (strayKey : Option Tree) (closing : Closing)
  /-- A value that cannot be read to its end, or is not there. `isPlain` says that it began as a
  word or a number. -/
  | broken (peek : Nat) (isPlain : Bool) (cut : Cut)

/-- A key, where the colon after it is, and a value. -/
inductive Member where
  | mk (key : Except Fault String) (colon : Nat) (value : Tree)

end

namespace Tree

/-- The number of bytes up to and with the first byte of the value. -/
def peek : Tree → Nat
  | leaf peek _ _ | array peek _ _ | object peek _ _ _ | broken peek _ _ => peek

mutual

/-- The cut in a value, if it is not complete. -/
def cut? : Tree → Option Cut
  | leaf .. => none
  | broken _ _ cut => some cut
  | array _ items closing => (itemsCut? items).or (closingCut? closing)
  | object _ members _ closing => (membersCut? members).or (closingCut? closing)

/-- The cut in items. -/
def itemsCut? : List Tree → Option Cut
  | [] => none
  | item :: rest => (cut? item).or (itemsCut? rest)

/-- The cut in members. -/
def membersCut? : List Member → Option Cut
  | [] => none
  | .mk _ _ value :: rest => (cut? value).or (membersCut? rest)

/-- The cut at the end of an array or an object. -/
def closingCut? : Closing → Option Cut
  | .closed _ => none
  | .cut cut => some cut

end

end Tree

/-- What was read, and what follows it; nothing does where the text broke off. -/
abbrev Parsed (α : Type) := α × Option (Nat × List Char)

/-! ### Blanks, words and numbers -/

/-- The blanks between the parts of a text. -/
def isSpace (c : Char) : Bool :=
  c == ' ' || c == '\n' || c == '\t' || c == '\r'

/-- The text behind its blanks, which are one byte each, and where that begins. -/
def skipSpace (offset : Nat) : List Char → Nat × List Char
  | [] => (offset, [])
  | c :: rest => if isSpace c then skipSpace (offset + 1) rest else (offset, c :: rest)

/-- Reads the rest of a word that has begun at `peek`. -/
def readWord (peek : Nat) (value : Json) (offset : Nat) :
    (word text : List Char) → Parsed Tree
  | [], text => (.leaf peek (.ok value) offset, some (offset, text))
  | _ :: _, [] => (.broken peek true (.same .eofInValue offset), none)
  | expected :: word, c :: text =>
    if c = expected then readWord peek value (offset + 1) word text
    else (.broken peek true (.same .expectedWord (offset + 1)), none)

/-- An ASCII digit. -/
def isDigit (c : Char) : Bool :=
  '0' ≤ c && c ≤ '9'

/-- The value of an ASCII digit. -/
def digitValue (c : Char) : Nat :=
  c.toNat - '0'.toNat

/-- The natural number with the given digits. -/
def ofDigits (digits : List Char) : Nat :=
  digits.foldl (fun value c => value * 10 + digitValue c) 0

/-- The parts of a number that was read. -/
structure Numeral where
  negative : Bool
  whole : List Char
  /-- The digits behind the point, if there is one. -/
  fraction : Option (List Char)
  /-- Whether the exponent is negative, its digits, and where they begin. -/
  exponent : Option (Bool × List Char × Nat)
  stop : Nat

namespace Numeral

/-- The leading digits that make an exact number, and how many there are. -/
def leading (value count : Nat) : List Char → Nat × Nat
  | [] => (value, count)
  | c :: rest =>
    let longer := value * 10 + digitValue c
    if longer ≤ maxWhole then leading longer (count + 1) rest else (value, count)

/-- The largest exponent that is counted exactly. -/
def maxExponent : Nat := 1 <<< 31 - 1

/-- How many digits of an exponent are read until it is too large, if it gets so. -/
def exponentOverflow? (value count : Nat) : List Char → Option Nat
  | [] => none
  | c :: rest =>
    let longer := value * 10 + digitValue c
    if maxExponent < longer then some (count + 1) else exponentOverflow? longer (count + 1) rest

/-- The digits that count and the power of ten they are multiplied with, apart from the exponent.
Digits that make the number inexact are left out, in the whole part and in the fraction by
themselves. -/
def scaled (numeral : Numeral) : Nat × Int :=
  let (whole, count) := leading 0 0 numeral.whole
  let (value, places) := leading whole 0 (numeral.fraction.getD [])
  (value, Int.ofNat (numeral.whole.length - count) - Int.ofNat places)

/-- The largest power of ten that is finite in double precision. -/
def maxPower : Nat := 308

/-- A power of ten in double precision. -/
def powerOfTen (n : Nat) : Option Binary64 :=
  Binary64.nearest ⟨Nat.pow 10 n, 1⟩

/-- Divides by a power of ten, in steps where that is not finite. -/
def lower (value : Binary64) (power : Nat) : Option Binary64 :=
  if power ≤ maxPower then (powerOfTen power).bind value.dividedBy
  else if value.significand = 0 then some value
  else ((powerOfTen maxPower).bind value.dividedBy).bind (lower · (power - maxPower))
termination_by power
decreasing_by
  have : 0 < maxPower := by decide
  omega

/-- A number of the given digits times a power of ten, or nothing where that is infinite. The
digits, the power of ten and their product are each rounded. -/
def ofParts (significand : Nat) (power : Int) : Option Binary64 := do
  let value ← Binary64.nearest ⟨significand, 1⟩
  if power < 0 then lower value (-power).toNat
  else if power ≤ maxPower then (powerOfTen power.toNat).bind value.times
  else if significand = 0 then some value
  else none

/-- A number that is not exact, or the fault that it is out of range. -/
def toDecimal (numeral : Numeral) : Except Fault Number :=
  let (significand, power) := numeral.scaled
  let number (power : Int) : Except Fault Number :=
    match ofParts significand power with
    | some value => .ok (.decimal numeral.negative value)
    | none => .error ⟨.numberRange, numeral.stop⟩
  match numeral.exponent with
  | none => number power
  | some (isNegative, digits, start) =>
    match exponentOverflow? 0 0 digits with
    | some count =>
      if significand != 0 && !isNegative then .error ⟨.numberRange, start + count⟩
      else .ok (.decimal numeral.negative .zero)
    | none =>
      let size := Int.ofNat (ofDigits digits)
      number (if isNegative then power - size else power + size)

/-- The number: exact if it is whole, of 64 bits, and not a negative zero. -/
def toNumber (numeral : Numeral) : Except Fault Number :=
  if numeral.fraction.isSome || numeral.exponent.isSome then numeral.toDecimal
  else
    let size := ofDigits numeral.whole
    if !numeral.negative && size ≤ maxWhole then .ok (.whole size)
    else if numeral.negative && size != 0 && size ≤ 1 <<< 63 then .ok (.whole (-Int.ofNat size))
    else numeral.toDecimal

/-- The number as a leaf. -/
def toLeaf (numeral : Numeral) (peek : Nat) (text : List Char) : Parsed Tree :=
  (.leaf peek (numeral.toNumber.map .number) numeral.stop, some (numeral.stop, text))

end Numeral

/-- A cut inside a number at the end of the text, which one who passes over it takes for a wrong
digit. -/
def Cut.endOfNumber (bytes : Nat) : Cut :=
  ⟨⟨.eofInValue, bytes⟩, ⟨.badNumber, bytes⟩⟩

/-- The digits at the start of a text, and what is behind them. -/
def spanDigits (text : List Char) : List Char × List Char :=
  (text.takeWhile isDigit, text.dropWhile isDigit)

/-- Reads the exponent of a number, if there is one, and ends the number. -/
def readExponent (peek : Nat) (negative : Bool) (whole : List Char)
    (fraction : Option (List Char)) (offset : Nat) (text : List Char) : Parsed Tree :=
  match text with
  | c :: afterLetter =>
    if c = 'e' || c = 'E' then
      let signed := afterLetter.head? == some '+' || afterLetter.head? == some '-'
      let start := if signed then offset + 2 else offset + 1
      let behind := if signed then afterLetter.tail else afterLetter
      match spanDigits behind with
      | ([], []) => (.broken peek true (.endOfNumber start), none)
      | ([], _ :: _) => (.broken peek true (.same .badNumber (start + 1)), none)
      | (digits, rest) =>
        let exponent := (afterLetter.head? == some '-', digits, start)
        Numeral.toLeaf ⟨negative, whole, fraction, some exponent, start + digits.length⟩ peek rest
    else Numeral.toLeaf ⟨negative, whole, fraction, none, offset⟩ peek text
  | [] => Numeral.toLeaf ⟨negative, whole, fraction, none, offset⟩ peek []

/-- Reads what is behind the whole part of a number. -/
def readFraction (peek : Nat) (negative : Bool) (whole : List Char) (offset : Nat)
    (text : List Char) : Parsed Tree :=
  match text with
  | '.' :: afterPoint =>
    match spanDigits afterPoint with
    | ([], []) => (.broken peek true (.endOfNumber (offset + 1)), none)
    | ([], _ :: _) => (.broken peek true (.same .badNumber (offset + 2)), none)
    | (digits, rest) =>
      readExponent peek negative whole (some digits) (offset + 1 + digits.length) rest
  | _ => readExponent peek negative whole none offset text

/-- Reads a number behind its sign. A zero has no digit behind it. -/
def readNumber (peek : Nat) (negative : Bool) (offset : Nat) (text : List Char) : Parsed Tree :=
  match spanDigits text with
  | ([], []) => (.broken peek true (.endOfNumber offset), none)
  | ([], _ :: _) => (.broken peek true (.same .badNumber (offset + 1)), none)
  | (['0'], rest) => readFraction peek negative ['0'] (offset + 1) rest
  | ('0' :: _, _) => (.broken peek true (.same .badNumber (offset + 2)), none)
  | (digits, rest) => readFraction peek negative digits (offset + digits.length) rest

/-! ### Strings -/

/-- The value of a digit in base sixteen. -/
def hexValue? (c : Char) : Option Nat :=
  if isDigit c then some (digitValue c)
  else if 'a' ≤ c && c ≤ 'f' then some (c.toNat - 'a'.toNat + 10)
  else if 'A' ≤ c && c ≤ 'F' then some (c.toNat - 'A'.toNat + 10)
  else none

/-- The value of four hexadecimal digits behind `\u`. The text must have four bytes left. -/
def readHex (offset : Nat) (text : List Char) : Except Fault Nat :=
  if width (text.take 4) < 4 then .error ⟨.eofInString, offset + width text⟩
  else
    match (text.take 4).foldlM (fun value c => (hexValue? c).map (value * 16 + ·)) 0 with
    | some value => .ok value
    | none => .error ⟨.badEscape, offset + 4⟩

/-- What an escape stands for, behind its backslash. -/
inductive Escape where
  /-- A character, and what is behind the escape. -/
  | char (c : Char) (offset : Nat) (rest : List Char)
  /-- Half a character. One who passes over it goes on behind it. -/
  | half (fault : Fault) (offset : Nat) (rest : List Char)
  | cut (fault : Fault)

/-- Whether the number is the first half of a character. -/
def isLeading (code : Nat) : Bool :=
  0xD800 ≤ code && code ≤ 0xDBFF

/-- Whether the number is the second half of a character. -/
def isTrailing (code : Nat) : Bool :=
  0xDC00 ≤ code && code ≤ 0xDFFF

/-- Reads the second half of a character whose first half ends at `offset`. -/
def readTrailing (first offset : Nat) (text : List Char) : Escape :=
  let half (problem : Problem) (bytes : Nat) : Escape := .half ⟨problem, bytes⟩ offset text
  match text with
  | [] => half .eofInString offset
  | ['\\'] => half .eofInString (offset + 1)
  | '\\' :: 'u' :: rest =>
    match readHex (offset + 2) rest with
    | .error fault => .half fault offset text
    | .ok second =>
      if isTrailing second then
        .char (Char.ofNat ((first - 0xD800) * 0x400 + (second - 0xDC00) + 0x10000)) (offset + 6)
          (rest.drop 4)
      else half .loneSurrogate (offset + 6)
  | '\\' :: _ => half .cutEscape (offset + 2)
  | _ => half .cutEscape (offset + 1)

/-- Reads an escape behind its backslash. -/
def readEscape (offset : Nat) (text : List Char) : Escape :=
  match text with
  | [] => .cut ⟨.eofInString, offset⟩
  | c :: rest =>
    let simple (c : Char) : Escape := .char c (offset + 1) rest
    if c = 'u' then
      match readHex (offset + 1) rest with
      | .error fault => .cut fault
      | .ok code =>
        if isTrailing code then .half ⟨.loneSurrogate, offset + 5⟩ (offset + 5) (rest.drop 4)
        else if isLeading code then readTrailing code (offset + 5) (rest.drop 4)
        else .char (Char.ofNat code) (offset + 5) (rest.drop 4)
    else if c = '"' || c = '\\' || c = '/' then simple c
    else if c = 'b' then simple '\x08'
    else if c = 'f' then simple '\x0c'
    else if c = 'n' then simple '\n'
    else if c = 'r' then simple '\r'
    else if c = 't' then simple '\t'
    else .cut ⟨.badEscape, offset + 1⟩

/-- What is known in a string: its characters so far, the newest first, and the first half of a
character that stood alone. -/
structure StringView where
  chars : List Char := []
  fault : Option Fault := none

namespace StringView

/-- The string, or its fault. -/
def value (view : StringView) : Except Fault String :=
  match view.fault with
  | some fault => .error fault
  | none => .ok (String.ofList view.chars.reverse)

/-- The cut for a string that breaks off: one who reads it has met an earlier fault. -/
def cut (view : StringView) (read skipped : Fault) : Cut :=
  ⟨view.fault.getD read, skipped⟩

end StringView

/-- Reads a string behind its quote, at most for a number of characters. -/
def readString (view : StringView) :
    (rounds offset : Nat) → List Char → Except Cut (Except Fault String × Nat × List Char)
  | 0, offset, _ => .error (.same .eofInString offset)
  | _ + 1, offset, [] =>
    .error (view.cut ⟨.eofInString, offset⟩ ⟨.eofInString, offset⟩)
  | rounds + 1, offset, c :: rest =>
    if c = '"' then .ok (view.value, offset + 1, rest)
    else if c = '\\' then
      match readEscape (offset + 1) rest with
      | .char c next rest => readString { view with chars := c :: view.chars } rounds next rest
      | .half fault next rest =>
        readString { view with fault := view.fault.or (some fault) } rounds next rest
      | .cut fault => .error (view.cut fault fault)
    else if c.toNat < 0x20 then
      .error (view.cut ⟨.rawControl, offset + 1⟩ ⟨.rawControl, offset⟩)
    else readString { view with chars := c :: view.chars } rounds (offset + c.utf8Size) rest

/-! ### Values -/

mutual

/-- Reads a value, with the blanks in front of it. -/
def readTree : (rounds offset : Nat) → List Char → Parsed Tree
  | 0, offset, _ => (.broken offset false (.same .eofInValue offset), none)
  | rounds + 1, offset, text =>
    match skipSpace offset text with
    | (offset, []) => (.broken offset false (.same .eofInValue offset), none)
    | (offset, c :: rest) =>
      let peek := offset + 1
      if c = 'n' then readWord peek .null peek "ull".toList rest
      else if c = 't' then readWord peek (.bool true) peek "rue".toList rest
      else if c = 'f' then readWord peek (.bool false) peek "alse".toList rest
      else if c = '-' then readNumber peek true peek rest
      else if isDigit c then readNumber peek false offset (c :: rest)
      else if c = '"' then
        match readString {} (rest.length + 1) peek rest with
        | .error cut => (.broken peek false cut, none)
        | .ok (value, stop, rest) => (.leaf peek (value.map .string) stop, some (stop, rest))
      else if c = '[' then
        let (items, closing, next) := readItems rounds [] peek rest
        (.array peek items closing, next)
      else if c = '{' then
        let (members, stray, closing, next) := readMembers rounds [] peek rest
        (.object peek members stray closing, next)
      else (.broken peek false (.same .expectedValue peek), none)

/-- Reads the items of an array, behind its bracket or behind those already read, which come newest
first. -/
def readItems : (rounds : Nat) → (items : List Tree) → (offset : Nat) → List Char →
    List Tree × Closing × Option (Nat × List Char)
  | 0, items, offset, _ => (items.reverse, .cut (.same .eofInArray offset), none)
  | rounds + 1, items, offset, text =>
    match skipSpace offset text with
    | (offset, []) => (items.reverse, .cut (.same .eofInArray offset), none)
    | (offset, c :: rest) =>
      if c = ']' then (items.reverse, .closed (offset + 1), some (offset + 1, rest))
      else if items.isEmpty then readItem rounds items offset (c :: rest)
      else if c = ',' then
        match skipSpace (offset + 1) rest with
        | (next, ']' :: _) =>
          (items.reverse, .cut ⟨⟨.trailingComma, next + 1⟩, ⟨.expectedValue, next + 1⟩⟩, none)
        | (next, rest) => readItem rounds items next rest
      else (items.reverse, .cut (.same .expectedArrayComma (offset + 1)), none)

/-- Reads an item and those behind it. -/
def readItem : (rounds : Nat) → (items : List Tree) → (offset : Nat) → List Char →
    List Tree × Closing × Option (Nat × List Char)
  | 0, items, offset, _ => (items.reverse, .cut (.same .eofInArray offset), none)
  | rounds + 1, items, offset, text =>
    match readTree rounds offset text with
    | (item, none) => ((item :: items).reverse, .cut (.same .eofInArray offset), none)
    | (item, some (next, rest)) => readItems rounds (item :: items) next rest

/-- Reads the members of an object, behind its bracket or behind those already read, which come
newest first. -/
def readMembers : (rounds : Nat) → (members : List Member) → (offset : Nat) → List Char →
    List Member × Option Tree × Closing × Option (Nat × List Char)
  | 0, members, offset, _ => (members.reverse, none, .cut (.same .eofInObject offset), none)
  | rounds + 1, members, offset, text =>
    match skipSpace offset text with
    | (offset, []) => (members.reverse, none, .cut (.same .eofInObject offset), none)
    | (offset, c :: rest) =>
      if c = '}' then (members.reverse, none, .closed (offset + 1), some (offset + 1, rest))
      else if members.isEmpty then readMember rounds members offset (c :: rest)
      else if c = ',' then
        match skipSpace (offset + 1) rest with
        | (next, []) =>
          (members.reverse, none, .cut ⟨⟨.eofInValue, next⟩, ⟨.eofInObject, next⟩⟩, none)
        | (next, '}' :: _) =>
          (members.reverse, none,
            .cut ⟨⟨.trailingComma, next + 1⟩, ⟨.keyNotString, next + 1⟩⟩, none)
        | (next, rest) => readMember rounds members next rest
      else (members.reverse, none, .cut (.same .expectedObjectComma (offset + 1)), none)

/-- Reads a member and those behind it. -/
def readMember : (rounds : Nat) → (members : List Member) → (offset : Nat) → List Char →
    List Member × Option Tree × Closing × Option (Nat × List Char)
  | 0, members, offset, _ => (members.reverse, none, .cut (.same .eofInObject offset), none)
  | rounds + 1, members, offset, text =>
    match text with
    | '"' :: rest =>
      match readString {} (rest.length + 1) (offset + 1) rest with
      | .error cut => (members.reverse, none, .cut cut, none)
      | .ok (key, stop, rest) =>
        match skipSpace stop rest with
        | (colon, ':' :: rest) =>
          match readTree rounds (colon + 1) rest with
          | (value, none) =>
            ((.mk key colon value :: members).reverse, none, .cut (.same .eofInObject colon), none)
          | (value, some (next, rest)) =>
            readMembers rounds (.mk key colon value :: members) next rest
        | (colon, rest) =>
          let cut : Cut :=
            if rest.isEmpty then .same .eofInObject colon else .same .expectedColon (colon + 1)
          ((.mk key colon (.broken colon false cut) :: members).reverse, none, .cut cut, none)
    | _ =>
      let (stray, _) := readTree rounds offset text
      (members.reverse, some stray, .cut (.same .keyNotString (offset + 1)), none)

end

/-- A text as a tree, and the place of the first byte behind it, if there is any but blanks. -/
structure Document where
  root : Tree
  trailing : Option Nat

/-- Reads a text. -/
def Document.ofText (text : List Char) : Document :=
  match readTree (3 * text.length + 3) 0 text with
  | (root, none) => ⟨root, none⟩
  | (root, some (offset, rest)) =>
    match skipSpace offset rest with
    | (_, []) => ⟨root, none⟩
    | (next, _ :: _) => ⟨root, some (next + 1)⟩

end SourceOutline.Json
