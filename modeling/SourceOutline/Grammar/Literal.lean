import SourceOutline.Fault
import SourceOutline.Expression
import SourceOutline.Text.Blank
import SourceOutline.Text.Utf8
import SourceOutline.Text.CharacterName

/-!
# The content of string literals

What may stand between the quotes of a literal: escapes, which stand for other characters; in
bytes, ASCII only; and in a format string fields, which hold an expression, perhaps a conversion
and perhaps a format that may hold fields again.

Nothing is computed from the content. It is read to find its first fault, and the only fault that
depends on more than the content is that of a field's expression, for which the reader is given a
function `Embedded`. Which names of characters there are is a parameter, too (`CharacterNames`).

Offsets are counted in the content, where every line end is one byte.
-/

namespace SourceOutline.Grammar.Literal

open Text

variable [CharacterNames]

/-- The fault of an expression in a format string, if it has one. -/
abbrev Embedded := List Char → Except Cause Unit

/-- A place in a literal: its offset, and the characters from there to the closing quotes. -/
structure Place where
  offset : Nat
  rest : List Char
  deriving Repr

namespace Place

/-- The place after the next character. -/
def next : Place → Place
  | ⟨offset, []⟩ => ⟨offset, []⟩
  | ⟨offset, c :: rest⟩ => ⟨offset + c.utf8Size, rest⟩

/-- The place at the end of the literal. -/
def last (place : Place) : Place :=
  ⟨place.offset + width place.rest, []⟩

end Place

/-! ### Escapes -/

/-- The value of a digit in base sixteen. -/
def hexValue? (c : Char) : Option Nat :=
  if '0' ≤ c && c ≤ '9' then some (c.toNat - '0'.toNat)
  else if 'a' ≤ c && c ≤ 'f' then some (c.toNat - 'a'.toNat + 10)
  else if 'A' ≤ c && c ≤ 'F' then some (c.toNat - 'A'.toNat + 10)
  else none

/-- The natural number with the given digits in base sixteen, if all of them are digits. -/
def ofHex? (digits : List Char) : Option Nat :=
  digits.foldlM (fun value c => (hexValue? c).map (value * 16 + ·)) 0

/-- An escape of a number of hexadecimal digits, behind its letter. They must be there, and must
not exceed the last code point. -/
def hexEscape (count : Nat) (place : Place) : Except Fault Place :=
  let digits := place.rest.take count
  match ofHex? digits with
  | some value =>
    if digits.length = count && value ≤ 0x10FFFF then
      pure ⟨place.offset + count, place.rest.drop count⟩
    else throw ⟨.badCharacterEscape, place.offset⟩
  | none => throw ⟨.badCharacterEscape, place.offset⟩

/-- The most bytes that the name of a character has. -/
def longestName : Nat := 88

/-- An escape of a character by its name in braces, behind its letter. -/
def nameEscape (place : Place) : Except Fault Place :=
  match place.rest with
  | '{' :: _ =>
    let opened := place.next
    let name := opened.rest.takeWhile (· != '}')
    match opened.rest.drop name.length with
    | [] => throw ⟨.brokenLiteral, opened.last.offset⟩
    | _ :: rest =>
      let closed : Place := ⟨opened.offset + width name + 1, rest⟩
      if longestName < width name then throw ⟨.badCharacterEscape, closed.offset⟩
      else if CharacterNames.isName name then pure closed
      else throw ⟨.badCharacterEscape, opened.offset⟩
  | _ => throw ⟨.brokenLiteral, place.offset⟩

/-- Whether the character is a digit in base eight. -/
def isOctal (c : Char) : Bool :=
  '0' ≤ c && c ≤ '7'

/-- An escape, behind its backslash. Up to three octal digits are one; what is none stands for
itself. -/
def escape (isBytes : Bool) (place : Place) : Except Fault Place :=
  match place.rest with
  | [] => throw ⟨.brokenLiteral, place.offset⟩
  | c :: _ =>
    let next := place.next
    if isOctal c then
      let more := ((next.rest.take 2).takeWhile isOctal).length
      pure ⟨next.offset + more, next.rest.drop more⟩
    else if c = 'x' then hexEscape 2 next
    else if c = 'u' && !isBytes then hexEscape 4 next
    else if c = 'U' && !isBytes then hexEscape 8 next
    else if c = 'N' && !isBytes then nameEscape next
    else if isBytes && 128 ≤ c.toNat then throw ⟨.charAmongBytes, next.offset⟩
    else pure next

/-! ### Text and bytes -/

/-- Reads a literal without fields, at most for the given number of characters. -/
def readPlain (form : StringForm) : (rounds : Nat) → Place → Except Fault Unit
  | 0, _ => pure ()
  | rounds + 1, place =>
    match place.rest with
    | [] => pure ()
    | c :: _ =>
      if c = '\\' && !form.isRaw then do
        readPlain form rounds (← escape form.isBytes place.next)
      else if form.isBytes && 128 ≤ c.toNat then throw ⟨.charAmongBytes, place.next.offset⟩
      else readPlain form rounds place.next

/-! ### Format strings -/

/-- What is known inside a field. -/
structure Field where
  /-- Where the field starts, behind its brace. -/
  start : Nat
  /-- The characters of the expression so far, the newest first. -/
  expression : List Char := []
  /-- The brackets that are open, the innermost first. -/
  brackets : List Char := []
  /-- Whether the field shows its own expression, as an equals sign behind it demands. -/
  showsItself : Bool := false

namespace Field

/-- Adds a character to the expression. -/
def add (field : Field) (c : Char) : Field :=
  { field with expression := c :: field.expression }

/-- Closes a bracket, which must be the one opened last. -/
def close (field : Field) (opening closing : Char) (offset : Nat) : Except Fault Field :=
  match field.brackets with
  | [] => throw ⟨.unmatchedBracket closing, offset⟩
  | bracket :: outer =>
    if bracket = opening then pure { field.add closing with brackets := outer }
    else throw ⟨.mismatchedBracket bracket closing, offset⟩

/-- Whether the expression holds nothing but blanks. -/
def isEmpty (field : Field) : Bool :=
  allBlank field.expression

end Field

/-- The conversion of a field, behind its mark: one of three letters, and then the end of the
field or a format. -/
def conversion (field : Field) (place : Place) : Except Fault Place :=
  if field.isEmpty then throw ⟨.emptyField, place.offset⟩
  else
    match place.rest with
    | [] => throw ⟨.unclosedField, place.offset⟩
    | c :: rest =>
      let next := place.next
      if c = 's' || c = 'a' || c = 'r' then
        match rest with
        | '}' :: _ | ':' :: _ => pure next
        | _ => throw ⟨.unclosedField, next.offset⟩
      else throw ⟨.badConversion, next.offset⟩

/-- The characters from here to the next quote of the given kind, and the place behind that. -/
def quoted? (quote : Char) (place : Place) : Option (List Char × Place) :=
  let inside := place.rest.takeWhile (· != quote)
  match place.rest.drop inside.length with
  | [] => none
  | _ :: rest => some (inside, ⟨place.offset + width inside + 1, rest⟩)

/-- The end of a field: its expression must be one. -/
def endField (embedded : Embedded) (field : Field) (place : Place) : Except Fault Place :=
  if field.isEmpty then throw ⟨.emptyField, place.offset⟩
  else
    match embedded field.expression.reverse with
    | .ok _ => pure place
    | .error cause => throw ⟨.inField cause, field.start⟩

mutual

/-- Reads the text of a format string and its fields: at level zero to the end, at a deeper level
to a closing brace. -/
def readFormat (embedded : Embedded) (isRaw : Bool) (level : Nat) :
    (rounds : Nat) → Place → Except Fault Place
  | 0, place => throw ⟨.unclosedField, place.offset⟩
  | rounds + 1, place =>
    match place.rest with
    | [] => pure place
    | '{' :: rest =>
      let opened := place.next
      match rest with
      | '{' :: _ =>
        if level = 0 then readFormat embedded isRaw level rounds opened.next
        else do
          let closed ← readField embedded isRaw level rounds { start := opened.offset } opened
          readFormat embedded isRaw level rounds closed
      | [] =>
        throw ⟨.unclosedField, opened.offset⟩
      | _ => do
        let closed ← readField embedded isRaw level rounds { start := opened.offset } opened
        readFormat embedded isRaw level rounds closed
    | '}' :: rest =>
      if level = 0 then
        match rest with
        | '}' :: _ => readFormat embedded isRaw level rounds place.next.next
        | _ => throw ⟨.loneBrace, place.next.offset⟩
      else pure place
    | c :: rest =>
      if c = '\\' && !isRaw then
        match rest with
        | '{' :: _ | '}' :: _ => readFormat embedded isRaw level rounds place.next
        | _ => do readFormat embedded isRaw level rounds (← escape false place.next)
      else readFormat embedded isRaw level rounds place.next

/-- Reads a field behind its opening brace, and its closing brace with it. -/
def readField (embedded : Embedded) (isRaw : Bool) (level : Nat) :
    (rounds : Nat) → Field → Place → Except Fault Place
  | 0, _, place => throw ⟨.unclosedField, place.offset⟩
  | rounds + 1, field, place =>
    let next := place.next
    match place.rest with
    | [] => throw ⟨.unclosedField, place.offset⟩
    | c :: rest =>
      if (c = '!' || c = '=' || c = '>' || c = '<') && rest.head? = some '=' then
        readField embedded isRaw level rounds ((field.add c).add '=') next.next
      else if c = '!' && field.brackets.isEmpty then do
        readField embedded isRaw level rounds field (← conversion field next)
      else if c = '=' && field.brackets.isEmpty then
        readField embedded isRaw level rounds { field with showsItself := true } next
      else if c = ':' && field.brackets.isEmpty then do
        readField embedded isRaw level rounds field
          (← readFieldFormat embedded isRaw level rounds next)
      else if c = '(' || c = '[' || c = '{' then
        readField embedded isRaw level rounds
          { field.add c with brackets := c :: field.brackets } next
      else if c = ')' then do
        readField embedded isRaw level rounds (← field.close '(' c next.offset) next
      else if c = ']' then do
        readField embedded isRaw level rounds (← field.close '[' c next.offset) next
      else if c = '}' then
        if field.brackets.isEmpty then endField embedded field next
        else do readField embedded isRaw level rounds (← field.close '{' c next.offset) next
      else if c = '"' || c = '\'' then
        match quoted? c next with
        | some (inside, closed) =>
          readField embedded isRaw level rounds
            { field with expression := c :: (inside.reverse ++ c :: field.expression) } closed
        | none => throw ⟨.brokenFieldLiteral, next.last.offset⟩
      else if c = ' ' && field.showsItself then
        readField embedded isRaw level rounds field next
      else if c = '\\' then throw ⟨.brokenFieldLiteral, next.offset⟩
      else if field.showsItself then throw ⟨.unclosedField, next.offset⟩
      else readField embedded isRaw level rounds (field.add c) next

/-- Reads the format of a field, up to the brace that closes the field. -/
def readFieldFormat (embedded : Embedded) (isRaw : Bool) (level : Nat) :
    (rounds : Nat) → Place → Except Fault Place
  | 0, place => throw ⟨.unclosedField, place.offset⟩
  | rounds + 1, place =>
    match place.rest with
    | [] | '}' :: _ => pure place
    | '{' :: _ =>
      if 1 ≤ level then throw ⟨.deepField, place.offset⟩
      else do
        let read ← readFormat embedded isRaw (level + 1) rounds place
        readFieldFormat embedded isRaw level rounds read
    | _ => readFieldFormat embedded isRaw level rounds place.next

end

/-! ### Whole literals -/

/-- Reads the content of a literal that starts at the given offset. -/
def read (embedded : Embedded) (literal : StringLiteral) (start : Nat) : Except Fault Unit :=
  let place : Place := ⟨start + literal.leadWidth, literal.content⟩
  if literal.form.isFormat then
    discard (readFormat embedded literal.form.isRaw 0 (2 * literal.content.length + 3) place)
  else readPlain literal.form literal.content.length place

/-- Reads the contents of adjacent literals, which are one value: either all are bytes or none. -/
def readAll (embedded : Embedded) (literals : List (StringLiteral × Nat)) :
    Except Fault Expr.Form := do
  match literals with
  | [] => pure ()
  | (_, start) :: _ =>
    if literals.any (·.1.form.isBytes) && !literals.all (·.1.form.isBytes) then
      throw ⟨.mixedLiterals, start⟩
  literals.forM fun (literal, start) => read embedded literal start
  pure (if literals.any (·.1.form.isFormat) then .formatString else .literal)

end SourceOutline.Grammar.Literal
