import SourceOutline.Json

/-!
# JSON text

How a value is written: `Json.compact` writes it on one line without blanks, and `Json.pretty` puts
every item and every member on a line of its own, indented by the depth it is nested at. Empty
arrays and objects are two brackets in both.

In a string only the quote, the backslash and the characters below U+0020 are escaped.
-/

namespace SourceOutline.Json

/-- A digit in base sixteen, in lower case. -/
def hexDigit (n : Nat) : Char :=
  Nat.digitChar (n % 16)

/-- How a character is written in a string. -/
def escapeChar (c : Char) : List Char :=
  if c = '"' then ['\\', '"']
  else if c = '\\' then ['\\', '\\']
  else if c = '\n' then ['\\', 'n']
  else if c = '\r' then ['\\', 'r']
  else if c = '\t' then ['\\', 't']
  else if c = '\x08' then ['\\', 'b']
  else if c = '\x0c' then ['\\', 'f']
  else if c.toNat < 0x20 then
    ['\\', 'u', '0', '0', hexDigit (c.toNat / 16), hexDigit c.toNat]
  else [c]

/-- How a string is written. -/
def quote (text : List Char) : List Char :=
  '"' :: (text.flatMap escapeChar ++ ['"'])

/-- A number in double precision: the shortest decimal that is read back as it, with an exponent
from `10 ^ 16` on and below `10 ^ -5`, and with a point wherever there is no exponent. -/
def doubleText (value : Binary64) : List Char :=
  let d := value.shortest .even
  if -5 < d.places && d.places ≤ 16 then
    if 0 ≤ d.exponent then d.positional ++ ['.', '0'] else d.positional
  else d.scientific

/-- How a number is written. -/
def Number.text : Number → List Char
  | whole value => signedDigits value
  | decimal negative value => if negative then '-' :: doubleText value else doubleText value

/-- How a value that is no array and no object is written. -/
def scalarText : Json → List Char
  | null => "null".toList
  | bool true => "true".toList
  | bool false => "false".toList
  | number value => value.text
  | string value => quote value.toList
  | array _ => []
  | object _ => []

mutual

/-- The value on one line, without blanks. -/
def compact : Json → List Char
  | array items => '[' :: (compactItems items ++ [']'])
  | object members => '{' :: (compactMembers members ++ ['}'])
  | value => scalarText value

/-- Items with commas between them. -/
def compactItems : List Json → List Char
  | [] => []
  | [item] => compact item
  | item :: rest => compact item ++ ',' :: compactItems rest

/-- Members with commas between them. -/
def compactMembers : List (String × Json) → List Char
  | [] => []
  | [(key, value)] => quote key.toList ++ ':' :: compact value
  | (key, value) :: rest => quote key.toList ++ ':' :: (compact value ++ ',' :: compactMembers rest)

end

/-- The start of a line at a depth. -/
def newLine (indent depth : Nat) : List Char :=
  '\n' :: List.replicate (indent * depth) ' '

mutual

/-- The value with a line for each item and each member, at a depth. -/
def pretty (indent depth : Nat) : Json → List Char
  | array [] => ['[', ']']
  | array (item :: rest) =>
    '[' :: (prettyItems indent (depth + 1) (item :: rest) ++ (newLine indent depth ++ [']']))
  | object [] => ['{', '}']
  | object (member :: rest) =>
    '{' :: (prettyMembers indent (depth + 1) (member :: rest) ++ (newLine indent depth ++ ['}']))
  | value => scalarText value

/-- Items, each on a line of its own. -/
def prettyItems (indent depth : Nat) : List Json → List Char
  | [] => []
  | [item] => newLine indent depth ++ pretty indent depth item
  | item :: rest =>
    newLine indent depth ++ (pretty indent depth item ++ ',' :: prettyItems indent depth rest)

/-- Members, each on a line of its own. -/
def prettyMembers (indent depth : Nat) : List (String × Json) → List Char
  | [] => []
  | [(key, value)] =>
    newLine indent depth ++ (quote key.toList ++ ':' :: ' ' :: pretty indent depth value)
  | (key, value) :: rest =>
    newLine indent depth ++ (quote key.toList ++ ':' :: ' ' ::
      (pretty indent depth value ++ ',' :: prettyMembers indent depth rest))

end

/-- How a value is laid out. -/
inductive Layout where
  | compact
  /-- With the given number of blanks for each level of nesting. -/
  | pretty (indent : Nat)
  deriving Repr, DecidableEq

/-- The text of a value. -/
def render (layout : Layout) (value : Json) : String :=
  match layout with
  | .compact => String.ofList (compact value)
  | .pretty indent => String.ofList (pretty indent 0 value)

end SourceOutline.Json
