import SourceOutline.Decimal

/-!
# Tokens

The words that a program is made of: names, keywords, numbers, string literals, operators and
brackets, and the three tokens that stand for layout (`newline`, `indent` and `dedent`). A `Token`
adds where a word stands. `Token.Kind.text` is how a word is quoted in a message.

A string literal keeps the characters between its quotes as they are written; what they stand for
is worked out later.
-/

namespace SourceOutline

/-- The reserved words. `match_`, `case_` and `type_` are reserved in some places only. -/
inductive Keyword where
  | false_ | none_ | true_ | and_ | as_ | assert_ | async_ | await_ | break_ | case_ | class_
  | continue_ | def_ | del_ | elif_ | else_ | except_ | finally_ | for_ | from_ | global_ | if_
  | import_ | in_ | is_ | lambda_ | match_ | nonlocal_ | not_ | or_ | pass_ | raise_ | return_
  | try_ | type_ | while_ | with_ | yield_
  deriving Repr, DecidableEq

/-- The operators that combine two values, each of which can also update a target. -/
inductive BinaryOp where
  | add | sub | mul | div | floorDiv | mod | matMul | power | bitAnd | bitOr | bitXor
  | shiftLeft | shiftRight
  deriving Repr, DecidableEq

/-- The comparison signs. -/
inductive OrderSign where
  | eq | ne | lt | le | gt | ge
  deriving Repr, DecidableEq

/-- The kinds of brackets. -/
inductive Bracket where
  | round | square | curly
  deriving Repr, DecidableEq

/-- Operators, delimiters and brackets. -/
inductive Symbol where
  | operator (op : BinaryOp)
  | update (op : BinaryOp)
  | comparison (sign : OrderSign)
  | opening (bracket : Bracket)
  | closing (bracket : Bracket)
  | tilde | assign | walrus | arrow | dot | ellipsis | comma | colon | semicolon
  deriving Repr, DecidableEq

/-- What the letters in front of a string literal say. -/
inductive StringForm where
  | plain | unicode | raw | bytes | rawBytes | format | rawFormat
  deriving Repr, DecidableEq

/-- A string literal: its form, whether it has three quotes, and the characters between the
quotes, where every line end is a line feed. -/
structure StringLiteral where
  form : StringForm
  triple : Bool
  content : List Char
  deriving Repr, DecidableEq

namespace Keyword

/-- The keyword's spelling. -/
def text : Keyword → String
  | false_ => "False" | none_ => "None" | true_ => "True" | and_ => "and" | as_ => "as"
  | assert_ => "assert" | async_ => "async" | await_ => "await" | break_ => "break"
  | case_ => "case" | class_ => "class" | continue_ => "continue" | def_ => "def" | del_ => "del"
  | elif_ => "elif" | else_ => "else" | except_ => "except" | finally_ => "finally"
  | for_ => "for" | from_ => "from" | global_ => "global" | if_ => "if" | import_ => "import"
  | in_ => "in" | is_ => "is" | lambda_ => "lambda" | match_ => "match"
  | nonlocal_ => "nonlocal" | not_ => "not" | or_ => "or" | pass_ => "pass" | raise_ => "raise"
  | return_ => "return" | try_ => "try" | type_ => "type" | while_ => "while" | with_ => "with"
  | yield_ => "yield"

/-- All keywords. -/
def all : List Keyword :=
  [false_, none_, true_, and_, as_, assert_, async_, await_, break_, case_, class_, continue_,
    def_, del_, elif_, else_, except_, finally_, for_, from_, global_, if_, import_, in_, is_,
    lambda_, match_, nonlocal_, not_, or_, pass_, raise_, return_, try_, type_, while_, with_,
    yield_]

/-- The keyword with the given spelling. -/
def ofText? (word : String) : Option Keyword :=
  all.find? (·.text == word)

end Keyword

namespace BinaryOp

/-- The operator's spelling. -/
def text : BinaryOp → String
  | add => "+" | sub => "-" | mul => "*" | div => "/" | floorDiv => "//" | mod => "%"
  | matMul => "@" | power => "**" | bitAnd => "&" | bitOr => "|" | bitXor => "^"
  | shiftLeft => "<<" | shiftRight => ">>"

/-- All binary operators. -/
def all : List BinaryOp :=
  [add, sub, mul, div, floorDiv, mod, matMul, power, bitAnd, bitOr, bitXor, shiftLeft, shiftRight]

end BinaryOp

namespace OrderSign

/-- The sign's spelling. -/
def text : OrderSign → String
  | eq => "==" | ne => "!=" | lt => "<" | le => "<=" | gt => ">" | ge => ">="

/-- All comparison signs. -/
def all : List OrderSign := [eq, ne, lt, le, gt, ge]

end OrderSign

namespace Bracket

/-- The bracket that opens. -/
def openingChar : Bracket → Char
  | round => '(' | square => '[' | curly => '{'

/-- The bracket that closes. -/
def closingChar : Bracket → Char
  | round => ')' | square => ']' | curly => '}'

/-- All kinds of brackets. -/
def all : List Bracket := [round, square, curly]

end Bracket

namespace Symbol

/-- The symbol's spelling. -/
def text : Symbol → String
  | operator op => op.text
  | update op => op.text ++ "="
  | comparison sign => sign.text
  | opening bracket => bracket.openingChar.toString
  | closing bracket => bracket.closingChar.toString
  | tilde => "~" | assign => "=" | walrus => ":=" | arrow => "->" | dot => "." | ellipsis => "..."
  | comma => "," | colon => ":" | semicolon => ";"

/-- All symbols. -/
def all : List Symbol :=
  BinaryOp.all.map operator ++ BinaryOp.all.map update ++ OrderSign.all.map comparison ++
    Bracket.all.map opening ++ Bracket.all.map closing ++
    [tilde, assign, walrus, arrow, dot, ellipsis, comma, colon, semicolon]

end Symbol

namespace StringForm

/-- The letters of the form, in their usual spelling. -/
def letters : StringForm → String
  | plain => "" | unicode => "u" | raw => "r" | bytes => "b" | rawBytes => "rb" | format => "f"
  | rawFormat => "rf"

/-- Whether the literal stands for bytes. -/
def isBytes : StringForm → Bool
  | bytes | rawBytes => true
  | _ => false

/-- Whether a backslash stands for itself. -/
def isRaw : StringForm → Bool
  | raw | rawBytes | rawFormat => true
  | _ => false

/-- Whether the literal may hold fields with expressions. -/
def isFormat : StringForm → Bool
  | format | rawFormat => true
  | _ => false

/-- The form that one letter stands for, in either case. -/
def ofLetter? (c : Char) : Option StringForm :=
  match c.toLower with
  | 'r' => some raw
  | 'f' => some format
  | 'u' => some unicode
  | 'b' => some bytes
  | _ => none

/-- The form that two letters stand for, in either order and either case. -/
def ofLetters? (c d : Char) : Option StringForm :=
  match c.toLower, d.toLower with
  | 'r', 'f' | 'f', 'r' => some rawFormat
  | 'r', 'b' | 'b', 'r' => some rawBytes
  | _, _ => none

end StringForm

namespace StringLiteral

/-- The number of bytes in front of the content: the letters and the opening quotes. -/
def leadWidth (literal : StringLiteral) : Nat :=
  literal.form.letters.length + if literal.triple then 3 else 1

/-- The literal with its content as written, always in double quotes. -/
def text (literal : StringLiteral) : String :=
  let quotes := if literal.triple then "\"\"\"" else "\""
  literal.form.letters ++ quotes ++ String.ofList literal.content ++ quotes

end StringLiteral

namespace Token

/-- What a token is. -/
inductive Kind where
  | name (id : String)
  | keyword (word : Keyword)
  | symbol (sign : Symbol)
  | int (value : Nat)
  | float (value : Decimal)
  | complex (imaginary : Decimal)
  | string (literal : StringLiteral)
  | newline
  | indent
  | dedent
  deriving Repr, DecidableEq

/-- How a message shows the token: quoted if it is a word, a whole or broken number or a symbol. -/
def Kind.text : Kind → String
  | name id => "'" ++ id ++ "'"
  | keyword word => "'" ++ word.text ++ "'"
  | symbol sign => "'" ++ sign.text ++ "'"
  | int value => "'" ++ toString value ++ "'"
  | float value => "'" ++ value.roundedText ++ "'"
  | complex imaginary => "0j" ++ imaginary.roundedText
  | string literal => literal.text
  | newline => "Newline"
  | indent => "Indent"
  | dedent => "Dedent"

end Token

/-- A token and where it stands, as byte offsets of its start and its end. -/
structure Token where
  kind : Token.Kind
  start : Nat
  stop : Nat
  deriving Repr, DecidableEq

end SourceOutline
