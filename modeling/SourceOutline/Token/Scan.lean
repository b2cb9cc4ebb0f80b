import SourceOutline.Token.Number

/-!
# One token

What stands at a place of the text: a token, a blank, a comment or a joined line to be passed
over, the end of a line, the end of the text, or a fault. `scan` answers for any place that is not
the start of a line; indentation is not its matter.

Words and symbols are taken as long as they can be. A string literal is taken up to its closing
quotes; a backslash in it protects the next character, whatever that is.
-/

namespace SourceOutline

open Text

/-- What stands at a place of the text. -/
inductive Scanned where
  /-- A token, and the place after it. -/
  | token (kind : Token.Kind) (next : Cursor)
  /-- Something that is no part of the program, and the place after it. -/
  | skipped (next : Cursor)
  /-- The end of a line, and the place after it. -/
  | lineEnd (next : Cursor)
  /-- The end of the text. -/
  | textEnd
  | fault (fault : Fault)

namespace Scanned

/-- A quote of either kind. -/
def isQuote (c : Char) : Bool :=
  c == '"' || c == '\''

/-- Whether the next two characters are both the given quote. -/
def atTwoQuotes (quote : Char) (rest : List Glyph) : Bool :=
  (rest.take 2).map (·.char) == [quote, quote]

/-- The content of a literal, newest character first, and the place after its closing quotes.
`literal` starts after the opening ones. -/
def literalContent (quote : Char) (triple : Bool) (content : List Char) (offset : Nat) :
    List Glyph → Except Fault (List Char × Cursor)
  | [] => throw ⟨if triple then .unexpectedEnd else .brokenLiteral, offset⟩
  | [glyph] =>
    if glyph.char = quote && !triple then pure (content, ⟨offset + glyph.bytes, []⟩)
    else if glyph.char = '\n' && !triple then
      throw ⟨.literalAcrossLines, offset + glyph.bytes⟩
    else throw ⟨if triple then .unexpectedEnd else .brokenLiteral, offset + glyph.bytes⟩
  | glyph :: second :: rest =>
    let next := offset + glyph.bytes
    if glyph.char = '\\' then
      literalContent quote triple (second.char :: '\\' :: content) (next + second.bytes) rest
    else if glyph.char = '\n' && !triple then throw ⟨.literalAcrossLines, next⟩
    else if glyph.char = quote && !triple then pure (content, ⟨next, second :: rest⟩)
    else if glyph.char = quote && atTwoQuotes quote (second :: rest) then
      pure (content, Cursor.advance 2 ⟨next, second :: rest⟩)
    else literalContent quote triple (glyph.char :: content) next (second :: rest)

/-- The string literal that begins here with the letters of its form. -/
def scanLiteral (form : StringForm) (cursor : Cursor) : Scanned :=
  let atQuote := cursor.advance form.letters.length
  let quote := atQuote.peek?.getD '"'
  let afterQuote := atQuote.advance 1
  let triple := atTwoQuotes quote afterQuote.rest
  let inside := if triple then afterQuote.advance 2 else afterQuote
  match literalContent quote triple [] inside.offset inside.rest with
  | .ok (content, next) => .token (.string ⟨form, triple, content.reverse⟩) next
  | .error found => .fault found

/-- The form of the literal that begins here with letters. -/
def literalForm? (cursor : Cursor) : Option StringForm :=
  match cursor.peek?, cursor.second?, cursor.third? with
  | some c, some d, third =>
    if isQuote d then StringForm.ofLetter? c
    else if (third.map isQuote).getD false then StringForm.ofLetters? c d
    else none
  | _, _, _ => none

/-- The word that begins here: a keyword or a name. -/
def scanWord (cursor : Cursor) : Scanned :=
  let (letters, next) := cursor.takeWhile Identifier.isContinue
  let word := String.ofList letters
  match Keyword.ofText? word with
  | some keyword => .token (.keyword keyword) next
  | none => .token (.name word) next

/-- The symbols with their spellings, the longest spellings first. -/
def symbols : List (List Char × Symbol) :=
  [3, 2, 1].flatMap fun length =>
    (Symbol.all.map fun sign => (sign.text.toList, sign)).filter (·.1.length == length)

/-- The longest symbol that stands here. -/
def symbolAt? (cursor : Cursor) : Option (List Char × Symbol) :=
  symbols.find? fun entry => cursor.startsWith entry.1

/-- What a backslash outside of literals does: it joins this line and the next, which must be
there. -/
def scanJoin (cursor : Cursor) : Scanned :=
  let next := cursor.advance 1
  if next.peek? = some '\n' then
    let after := next.advance 1
    if after.rest.isEmpty then .fault ⟨.unexpectedEnd, after.offset⟩ else .skipped after
  else .fault ⟨.strayBackslash, next.offset⟩

/-- A symbol, a picture that stands as a name, or a character that nothing begins with. -/
def scanOther (c : Char) (cursor : Cursor) : Scanned :=
  match symbolAt? cursor with
  | some (spelling, sign) => .token (.symbol sign) (cursor.advance spelling.length)
  | none =>
    let next := cursor.advance 1
    if c = '!' then .fault ⟨.strayCharacter c, cursor.offset⟩
    else if Identifier.isEmoji c then .token (.name c.toString) next
    else .fault ⟨.strayCharacter c, next.offset⟩

/-- What stands at a place of the text. -/
def scan (cursor : Cursor) : Scanned :=
  match cursor.peek? with
  | none => .textEnd
  | some c =>
    if Identifier.isStart c then
      match literalForm? cursor with
      | some form => scanLiteral form cursor
      | none => scanWord cursor
    else if Identifier.isDigit c ||
        (c == '.' && (cursor.second?.map Identifier.isDigit).getD false) then
      match Number.scan cursor with
      | .ok (kind, next) => .token kind next
      | .error found => .fault found
    else if isQuote c then scanLiteral .plain cursor
    else if c = '#' then .skipped cursor.skipLine
    else if c = ' ' || c = '\t' || c = '\x0c' then .skipped (cursor.advance 1)
    else if c = '\n' then .lineEnd (cursor.advance 1)
    else if c = '\\' then scanJoin cursor
    else scanOther c cursor

end Scanned

end SourceOutline
