import SourceOutline.Json.Text

/-!
# What can be wrong with JSON text

A text may end too early, may not be JSON, or may be JSON of another shape than the one wanted;
these are the three `Category`s. A `Fault` is a `Problem` and the number of bytes read when it was
found, and its message gives that place as a line and a column.
-/

namespace SourceOutline.Json

/-- The classes of problems. -/
inductive Category where
  /-- The text ends too early. -/
  | eof
  /-- The text is not JSON. -/
  | grammar
  /-- The text is JSON of another shape. -/
  | shape
  deriving Repr, DecidableEq

/-- What was found where something else was wanted, as messages call it. -/
inductive Found where
  | null
  | bool (value : Bool)
  | number (value : Number)
  | string (value : String)
  | array
  | object
  deriving Repr, DecidableEq

/-- A problem with a text. -/
inductive Problem where
  | eofInArray | eofInObject | eofInString | eofInValue
  | expectedColon | expectedArrayComma | expectedObjectComma | expectedWord | expectedValue
  | badEscape | badNumber | numberRange | loneSurrogate | cutEscape | rawControl
  | keyNotString | trailingComma | trailingText | tooDeep
  /-- A value of another kind. -/
  | wrongKind (found : Found) (wanted : String)
  /-- A value of the right kind that is not possible here. -/
  | wrongValue (found : Found) (wanted : String)
  /-- A word that is none of those wanted. -/
  | wrongWord (found : String) (wanted : String)
  /-- An array with another number of items. -/
  | wrongLength (found : Nat) (wanted : String)
  | missingKey (key : String)
  | repeatedKey (key : String)
  /-- A value that fits none of several shapes. -/
  | noShape (wanted : String)
  deriving Repr, DecidableEq

namespace Problem

/-- The class that a problem belongs to. -/
def category : Problem → Category
  | eofInArray | eofInObject | eofInString | eofInValue => .eof
  | expectedColon | expectedArrayComma | expectedObjectComma | expectedWord | expectedValue
  | badEscape | badNumber | numberRange | loneSurrogate | cutEscape | rawControl | keyNotString
  | trailingComma | trailingText | tooDeep => .grammar
  | wrongKind .. | wrongValue .. | wrongWord .. | wrongLength .. | missingKey _ | repeatedKey _
  | noShape _ => .shape

end Problem

/-- How a character is shown in a message. -/
def showChar (c : Char) : String :=
  if c = '"' then "\\\""
  else if c = '\\' then "\\\\"
  else if c = '\n' then "\\n"
  else if c = '\r' then "\\r"
  else if c = '\t' then "\\t"
  else if c = '\x00' then "\\0"
  else if c.toNat < 0x20 || c.toNat = 0x7f then
    "\\u\x7b" ++ String.ofList (Nat.toDigits 16 c.toNat) ++ "\x7d"
  else c.toString

/-- What messages call the kinds of values. -/
def Found.text : Found → String
  | null => "null"
  | bool true => "boolean `true`"
  | bool false => "boolean `false`"
  | number (.whole value) => "integer `" ++ toString value ++ "`"
  | number value@(.decimal ..) => "floating point `" ++ String.ofList value.text ++ "`"
  | string value => "string \"" ++ String.join (value.toList.map showChar) ++ "\""
  | array => "sequence"
  | object => "map"

namespace Problem

/-- The wording of each problem. -/
def message : Problem → String
  | eofInArray => "EOF while parsing a list"
  | eofInObject => "EOF while parsing an object"
  | eofInString => "EOF while parsing a string"
  | eofInValue => "EOF while parsing a value"
  | expectedColon => "expected `:`"
  | expectedArrayComma => "expected `,` or `]`"
  | expectedObjectComma => "expected `,` or `\x7d`"
  | expectedWord => "expected ident"
  | expectedValue => "expected value"
  | badEscape => "invalid escape"
  | badNumber => "invalid number"
  | numberRange => "number out of range"
  | loneSurrogate => "lone leading surrogate in hex escape"
  | cutEscape => "unexpected end of hex escape"
  | rawControl => "control character (\\u0000-\\u001F) found while parsing a string"
  | keyNotString => "key must be a string"
  | trailingComma => "trailing comma"
  | trailingText => "trailing characters"
  | tooDeep => "recursion limit exceeded"
  | wrongKind found wanted => "invalid type: " ++ found.text ++ ", expected " ++ wanted
  | wrongValue found wanted => "invalid value: " ++ found.text ++ ", expected " ++ wanted
  | wrongWord found wanted => "unknown variant `" ++ found ++ "`, expected " ++ wanted
  | wrongLength found wanted => "invalid length " ++ toString found ++ ", expected " ++ wanted
  | missingKey key => "missing field `" ++ key ++ "`"
  | repeatedKey key => "duplicate field `" ++ key ++ "`"
  | noShape wanted => "data did not match any variant of " ++ wanted

end Problem

/-- A problem, and the number of bytes of the text that were read when it was found. -/
structure Fault where
  problem : Problem
  bytes : Nat
  deriving Repr, DecidableEq

/-- The line and the column of a number of bytes: the lines begun, and the bytes since the last line
feed. -/
def lineColumn (bytes : Nat) (line column : Nat) : List Char → Nat × Nat
  | [] => (line, column)
  | c :: rest =>
    if bytes = 0 then (line, column)
    else if c = '\n' then lineColumn (bytes - 1) (line + 1) 0 rest
    else lineColumn (bytes - c.utf8Size) line (column + min bytes c.utf8Size) rest

/-- The whole message about a fault in a text. -/
def Fault.message (fault : Fault) (text : List Char) : String :=
  let (line, column) := lineColumn fault.bytes 1 0 text
  fault.problem.message ++ " at line " ++ toString line ++ " column " ++ toString column

end SourceOutline.Json
