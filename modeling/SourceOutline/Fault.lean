import SourceOutline.Token

/-!
# What can be wrong with a program

The reasons for which a text is no program, from its characters up to its grammar. A `Fault` is a
reason and the byte offset that it is reported at, and `Cause.message` is its wording. The wording
of a fault inside an expression of a format string is that of the fault itself, announced as one
of the format string.
-/

namespace SourceOutline

/-- A reason for which a text is no program. -/
inductive Cause where
  /-- A line is indented by a tab after a space. -/
  | tabAfterSpace
  /-- Two lines' indentations cannot be compared, since they mix tabs and spaces. -/
  | incomparableIndent
  /-- A line returns to an indentation that no open block has. -/
  | strayUnindent
  /-- A number with a radix has no digit. -/
  | noDigits
  /-- An underscore in a number does not separate two digits. -/
  | strayUnderscore
  /-- A number with a point or an exponent is incomplete. -/
  | badDecimal
  /-- A whole number begins with a zero and is not zero. -/
  | leadingZero
  /-- A line ends inside a literal of one quote. -/
  | literalAcrossLines
  /-- The text ends inside a literal of one quote, or an escape is cut short. -/
  | brokenLiteral
  /-- The text ends inside a bracket, inside a literal of three quotes or after a backslash. -/
  | unexpectedEnd
  /-- A character that no token begins with. -/
  | strayCharacter (c : Char)
  /-- A bracket is closed that was not opened. -/
  | strayClosing
  /-- A backslash is followed by something other than a line end. -/
  | strayBackslash
  /-- An escape that stands for no character. -/
  | badCharacterEscape
  /-- A character above ASCII among bytes. -/
  | charAmongBytes
  /-- A literal of bytes stands beside one of text. -/
  | mixedLiterals
  /-- A token with which no program goes on. -/
  | unexpectedToken (kind : Token.Kind)
  /-- A line is indented that begins no block. -/
  | unexpectedIndent
  /-- A block is to begin, and the line is not indented. -/
  | missingIndent
  /-- The program is to go on where it ends. -/
  | unexpectedEndOfProgram
  /-- A lone starred value in round brackets. -/
  | loneStar
  /-- A lone doubly starred value in round brackets. -/
  | loneDoubleStar
  /-- Two keyword arguments have the same name. -/
  | repeatedKeyword (name : String)
  /-- A positional argument comes after a keyword argument. -/
  | positionalAfterKeyword
  /-- A starred argument comes after a doubly starred one. -/
  | starAfterDoubleStar
  /-- A bare star among the parameters has no parameter after it. -/
  | bareStar
  /-- A parameter without a default comes after one with a default. -/
  | defaultOrder
  /-- Two parameters have the same name. -/
  | repeatedParameter (name : String)
  /-- A pattern is to be named by the wildcard. -/
  | wildcardName
  /-- A field of a format string is not closed. -/
  | unclosedField
  /-- A closing brace in the text of a format string stands alone. -/
  | loneBrace
  /-- A field of a format string holds no expression. -/
  | emptyField
  /-- The conversion of a field is not one of the three letters. -/
  | badConversion
  /-- A bracket in a field is closed by one of another kind. -/
  | mismatchedBracket (opened closed : Char)
  /-- A bracket in a field is closed that was not opened. -/
  | unmatchedBracket (closed : Char)
  /-- A literal in a field is not closed, or a backslash stands in a field. -/
  | brokenFieldLiteral
  /-- Fields are nested in the formats of fields more than once. -/
  | deepField
  /-- The expression of a field is wrong for a reason of its own. -/
  | inField (cause : Cause)
  deriving Repr, DecidableEq

namespace Cause

/-- The wording of each reason. -/
def message : Cause → String
  | tabAfterSpace => "Tabs not allowed as part of indentation after spaces"
  | incomparableIndent => "inconsistent use of tabs and spaces in indentation"
  | strayUnindent => "unindent does not match any outer indentation level"
  | noDigits => "ParseBigIntError \x7b kind: Empty \x7d"
  | strayUnderscore => "Invalid Syntax"
  | badDecimal => "Invalid decimal literal"
  | leadingZero => "Invalid Token"
  | literalAcrossLines => "EOL while scanning string literal"
  | brokenLiteral => "Got unexpected string"
  | unexpectedEnd => "unexpected EOF while parsing"
  | strayCharacter c => "Got unexpected token " ++ c.toString
  | strayClosing => "Got unexpected nesting"
  | strayBackslash => "unexpected character after line continuation character"
  | badCharacterEscape => "Got unexpected unicode"
  | charAmongBytes => "bytes can only contain ASCII literal characters"
  | mixedLiterals => "cannot mix bytes and nonbytes literals"
  | unexpectedToken kind => "invalid syntax. Got unexpected token " ++ kind.text
  | unexpectedIndent => "unexpected indent"
  | missingIndent => "expected an indented block"
  | unexpectedEndOfProgram => "Got unexpected EOF"
  | loneStar => "cannot use starred expression here"
  | loneDoubleStar => "cannot use double starred expression here"
  | repeatedKeyword name => "keyword argument repeated: " ++ name
  | positionalAfterKeyword => "positional argument follows keyword argument"
  | starAfterDoubleStar => "iterable argument unpacking follows keyword argument unpacking"
  | bareStar => "named arguments must follow bare *"
  | defaultOrder => "non-default argument follows default argument"
  | repeatedParameter name => "duplicate argument '" ++ name ++ "' in function definition"
  | wildcardName => "cannot use '_' as a target"
  | unclosedField => "f-string: expecting '\x7d'"
  | loneBrace => "f-string: single '\x7d' is not allowed"
  | emptyField => "f-string: empty expression not allowed"
  | badConversion => "f-string: invalid conversion character"
  | mismatchedBracket opened closed =>
    "f-string: closing parenthesis '" ++ closed.toString ++
      "' does not match opening parenthesis '" ++ opened.toString ++ "'"
  | unmatchedBracket closed => "f-string: unmatched '" ++ closed.toString ++ "'"
  | brokenFieldLiteral => "f-string: unterminated string"
  | deepField => "f-string: expressions nested too deeply"
  | inField cause => "f-string: " ++ cause.message

end Cause

/-- A reason, and the byte offset that it is reported at. -/
structure Fault where
  cause : Cause
  offset : Nat
  deriving Repr, DecidableEq

end SourceOutline
