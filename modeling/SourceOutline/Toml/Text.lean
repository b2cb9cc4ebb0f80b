/-!
# The characters of TOML text

A `Parser` takes characters from the front of a text. This module reads what surrounds the values:
blanks, comments, the ends of lines, strings and keys.

A line ends with a line feed, which a carriage return may stand before; a carriage return alone is
no character of TOML text, and neither is any other control character but the tab.
-/

namespace SourceOutline.Toml

/-- A function from a text to a value and what is left of the text. -/
abbrev Parser := StateT (List Char) Option

namespace Parser

variable {α : Type}

/-- The next character. -/
def peek? : Parser (Option Char) :=
  fun text => some (text.head?, text)

/-- Takes a character that passes a test. -/
def satisfy (test : Char → Bool) : Parser Char
  | c :: rest => if test c then some (c, rest) else none
  | [] => none

/-- Takes the given character. -/
def char (c : Char) : Parser Unit := do
  discard (satisfy (· == c))

/-- Takes the given character if it is next. -/
def accept? (c : Char) : Parser Bool := do
  if (← peek?) == some c then
    char c
    pure true
  else pure false

/-- Takes the given characters. -/
def exactly : (text : List Char) → Parser Unit
  | [] => pure ()
  | c :: rest => do
    char c
    exactly rest

/-- Takes all characters up to one that fails a test. -/
def takeAll (test : Char → Bool) : Parser (List Char) :=
  fun text => some (text.takeWhile test, text.dropWhile test)

/-- Takes a number of characters that pass a test. -/
def takeExactly (test : Char → Bool) : (count : Nat) → Parser (List Char)
  | 0 => pure []
  | count + 1 => do
    let c ← satisfy test
    pure (c :: (← takeExactly test count))

/-- The characters that something is read from. -/
def textOf (item : Parser α) : Parser (List Char) :=
  fun text => do
    let (_, rest) ← item text
    pure (text.take (text.length - rest.length), rest)

/-- The result of a step that may be impossible. -/
def ofOption (value : Option α) : Parser α :=
  fun text => value.map (·, text)

end Parser

open Toml.Parser

/-! ### Blanks and lines -/

/-- The blanks inside a line. -/
def isBlank (c : Char) : Bool :=
  c == ' ' || c == '\t'

/-- The characters that may stand in comments and, as they are, in strings. -/
def isText (c : Char) : Bool :=
  c == '\t' || (0x20 ≤ c.toNat && c.toNat != 0x7F)

/-- Skips blanks. -/
def blanks : Parser Unit := do
  discard (takeAll isBlank)

/-- Skips a comment if there is one. -/
def comment : Parser Unit := do
  if ← accept? '#' then discard (takeAll isText)

/-- Takes the end of a line. -/
def lineEnd : Parser Unit := do
  discard (accept? '\r')
  char '\n'

/-- Takes what may stand behind the last thing on a line, and the end of the line. -/
def lineTail : Parser Unit := do
  blanks
  comment
  if (← peek?).isSome then lineEnd

/-- Skips blanks, comments and ends of lines, as often as there may be any. -/
def gaps : (rounds : Nat) → Parser Unit
  | 0 => pure ()
  | rounds + 1 => do
    blanks
    comment
    match ← optional lineEnd with
    | some () => gaps rounds
    | none => pure ()

/-! ### Strings -/

/-- The value of hexadecimal digits. -/
def hexValue? (digits : List Char) : Option Nat :=
  digits.foldlM (fun value c =>
    if '0' ≤ c && c ≤ '9' then some (value * 16 + (c.toNat - '0'.toNat))
    else if 'a' ≤ c && c ≤ 'f' then some (value * 16 + (c.toNat - 'a'.toNat + 10))
    else if 'A' ≤ c && c ≤ 'F' then some (value * 16 + (c.toNat - 'A'.toNat + 10))
    else none) 0

/-- The character with a number in hexadecimal digits. -/
def charOfHex? (digits : List Char) : Option Char := do
  let code ← hexValue? digits
  if code.isValidChar then some (Char.ofNat code) else none

/-- The character that an escape of one letter stands for. -/
def simpleEscape? (c : Char) : Option Char :=
  if c = '"' then some '"'
  else if c = '\\' then some '\\'
  else if c = 'b' then some '\x08'
  else if c = 'f' then some '\x0c'
  else if c = 'n' then some '\n'
  else if c = 'r' then some '\r'
  else if c = 't' then some '\t'
  else none

/-- Reads an escape behind its backslash. -/
def escape : Parser Char := do
  let c ← satisfy fun _ => true
  if c = 'u' then
    ofOption (charOfHex? (← takeExactly (fun _ => true) 4))
  else if c = 'U' then
    ofOption (charOfHex? (← takeExactly (fun _ => true) 8))
  else ofOption (simpleEscape? c)

/-- Reads a string behind its opening quote. -/
def basicString : (rounds : Nat) → Parser (List Char)
  | 0 => failure
  | rounds + 1 => do
    let c ← satisfy isText
    if c = '"' then pure []
    else
      let c ← if c = '\\' then escape else pure c
      pure (c :: (← basicString rounds))

/-- Reads a string without escapes behind its opening quote. -/
def literalString : (rounds : Nat) → Parser (List Char)
  | 0 => failure
  | rounds + 1 => do
    let c ← satisfy isText
    if c = '\'' then pure []
    else pure (c :: (← literalString rounds))

/-- Reads the quotes that may end a string over several lines: three of them, and one or two more
that belong to the string. There is no answer where fewer than three are next. -/
def closingQuotes (quote : Char) : Parser (List Char) := do
  exactly [quote, quote, quote]
  if ← accept? quote then
    if ← accept? quote then pure [quote, quote] else pure [quote]
  else pure []

/-- Skips blanks and ends of lines, as often as there may be any. -/
def emptyLines : (rounds : Nat) → Parser Unit
  | 0 => pure ()
  | rounds + 1 => do
    blanks
    match ← optional lineEnd with
    | some () => emptyLines rounds
    | none => pure ()

/-- Skips the rest of a line that ends in a backslash, and all blanks and empty lines behind it. -/
def foldedLine (rounds : Nat) : Parser Unit := do
  blanks
  lineEnd
  emptyLines rounds

/-- Reads a string over several lines behind its opening quotes. -/
def longBasicString : (rounds : Nat) → Parser (List Char)
  | 0 => failure
  | rounds + 1 => do
    match ← optional (closingQuotes '"') with
    | some quotes => pure quotes
    | none =>
      match ← optional lineEnd with
      | some () => pure ('\n' :: (← longBasicString rounds))
      | none =>
        let c ← satisfy isText
        if c = '\\' then
          match ← optional (foldedLine rounds) with
          | some () => longBasicString rounds
          | none =>
            let c ← escape
            pure (c :: (← longBasicString rounds))
        else pure (c :: (← longBasicString rounds))

/-- Reads a string over several lines without escapes behind its opening quotes. -/
def longLiteralString : (rounds : Nat) → Parser (List Char)
  | 0 => failure
  | rounds + 1 => do
    match ← optional (closingQuotes '\'') with
    | some quotes => pure quotes
    | none =>
      match ← optional lineEnd with
      | some () => pure ('\n' :: (← longLiteralString rounds))
      | none =>
        let c ← satisfy isText
        pure (c :: (← longLiteralString rounds))

/-- A number of rounds that no loop over the text exceeds. -/
def roundsLeft : Parser Nat := do
  pure ((← get).length + 1)

/-- Reads a string of one line. -/
def shortString : Parser String := do
  let rounds ← roundsLeft
  if ← accept? '"' then
    pure (String.ofList (← basicString rounds))
  else
    char '\''
    pure (String.ofList (← literalString rounds))

/-- Reads a string. An end of line directly behind three opening quotes does not belong to it. -/
def string : Parser String := do
  let rounds ← roundsLeft
  match ← optional (exactly ['"', '"', '"']) with
  | some () =>
    discard (optional lineEnd)
    pure (String.ofList (← longBasicString rounds))
  | none =>
    match ← optional (exactly ['\'', '\'', '\'']) with
    | some () =>
      discard (optional lineEnd)
      pure (String.ofList (← longLiteralString rounds))
    | none => shortString

/-! ### Keys -/

/-- The characters of a key without quotes. -/
def isBare (c : Char) : Bool :=
  c.isAlphanum || c == '-' || c == '_'

/-- Reads one part of a key. -/
def keyPart : Parser String := do
  match ← peek? with
  | some '"' | some '\'' => shortString
  | _ =>
    let first ← satisfy isBare
    pure (String.ofList (first :: (← takeAll isBare)))

/-- Reads the parts of a key, with points between them. -/
def keyParts : (rounds : Nat) → Parser (List String)
  | 0 => failure
  | rounds + 1 => do
    blanks
    let part ← keyPart
    blanks
    if ← accept? '.' then pure (part :: (← keyParts rounds)) else pure [part]

/-- Reads a key and the blanks around it. -/
def key : Parser (List String) := do
  keyParts (← roundsLeft)

end SourceOutline.Toml
