import SourceOutline.Toml.Scalar

/-!
# TOML documents

`Document.parse?` reads a whole text as one table. Each line of it is empty, gives a key its value,
or is a header, which says what table the lines behind it are about; before the first header they
are about the table of the whole text.

The text may start with a byte order mark. There is one answer for everything that can be wrong
with it.
-/

namespace SourceOutline.Toml

open Toml.Parser

/-! ### Values -/

/-- Reads the items of an array behind its bracket or behind a comma. The last one may have a comma
behind it. -/
def arrayItems (value : Parser Value) : (rounds : Nat) → Parser (List Value)
  | 0 => failure
  | rounds + 1 => do
    gaps (← roundsLeft)
    if ← accept? ']' then pure []
    else
      let item ← value
      gaps (← roundsLeft)
      if ← accept? ',' then pure (item :: (← arrayItems value rounds))
      else
        char ']'
        pure [item]

/-- Reads the pairs of an inline table behind its brace or behind a comma, and adds them to those
read before. -/
def inlinePairs (value : Parser Value) : (rounds : Nat) → Members → Parser Members
  | 0, _ => failure
  | rounds + 1, members => do
    let keys ← key
    char '='
    blanks
    let item ← value
    blanks
    let members ← ofOption (members.addValue keys item)
    if ← accept? ',' then inlinePairs value rounds members
    else
      char '}'
      pure members

/-- Reads an inline table behind its brace. -/
def inlineTable (value : Parser Value) : Parser Value := do
  blanks
  if ← accept? '}' then pure (.table [])
  else pure (.table (closeMembers (← inlinePairs value (← roundsLeft) [])))

/-- Reads a value, nested at most as deep as the given number. -/
def value : (depth : Nat) → Parser Value
  | 0 => failure
  | depth + 1 => do
    match ← peek? with
    | some '"' | some '\'' => pure (.string (← string))
    | some '[' => do
      char '['
      pure (.array (← arrayItems (value depth) (← roundsLeft)))
    | some '{' => do
      char '{'
      inlineTable (value depth)
    | _ => scalar

/-! ### Lines -/

/-- A line that is not empty. -/
inductive Statement where
  | pair (keys : List String) (value : Value)
  | table (keys : List String)
  /-- The header of an item of an array. -/
  | item (keys : List String)
  deriving Repr

/-- Reads a header behind its first bracket. -/
def header : Parser Statement := do
  if ← accept? '[' then
    let keys ← key
    exactly [']', ']']
    pure (.item keys)
  else
    let keys ← key
    char ']'
    pure (.table keys)

/-- Reads a key and its value. -/
def pair : Parser Statement := do
  let keys ← key
  char '='
  blanks
  pure (.pair keys (← value (← roundsLeft)))

/-- Reads a line. -/
def line : Parser (Option Statement) := do
  blanks
  let statement ←
    match ← peek? with
    | none | some '#' | some '\n' | some '\r' => pure none
    | some '[' => do
      char '['
      some <$> header
    | some _ => some <$> pair
  lineTail
  pure statement

/-- Reads lines to the end of the text. -/
def lines : (rounds : Nat) → Parser (List Statement)
  | 0 => failure
  | rounds + 1 => do
    if (← peek?).isNone then pure []
    else
      let statement ← line
      pure (statement.toList ++ (← lines rounds))

/-! ### Documents -/

namespace Document

/-- What is said by lines behind a header with the given keys. -/
def run : (header : List String) → Members → List Statement → Option Members
  | _, members, [] => some members
  | header, members, .pair keys value :: rest => do
    run header (← members.within (·.addValue keys value) header) rest
  | _, members, .table keys :: rest => do
    run keys (← members.declare keys) rest
  | _, members, .item keys :: rest => do
    run keys (← members.declareItem keys) rest

/-- The text without a byte order mark. -/
def dropMark : List Char → List Char
  | c :: rest => if c.toNat = 0xFEFF then rest else c :: rest
  | [] => []

/-- The table that a text stands for. -/
def parse? (text : List Char) : Option Table := do
  let text := dropMark text
  let (statements, _) ← lines (text.length + 1) text
  pure (closeMembers (← run [] [] statements))

end Document

end SourceOutline.Toml
