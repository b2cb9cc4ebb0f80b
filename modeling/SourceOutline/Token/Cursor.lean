/-!
# A place in a text that is being read

A line may end in a line feed, in a carriage return, or in the two together. To whoever reads the
text character by character all three are one line feed; only the number of bytes tells them
apart. A `Glyph` is such a reading of one character or one line end, and `Glyph.ofText` reads a
whole text.

A `Cursor` is a byte offset and the glyphs that follow it. Moving it forward keeps the two in step:
the offset grows by the bytes of the glyphs that are left behind.
-/

namespace SourceOutline

namespace Text

/-- A character as it is read, and the number of bytes it was read from. -/
structure Glyph where
  /-- The character; a line feed for every kind of line end. -/
  char : Char
  /-- The bytes that it takes up in the text. -/
  bytes : Nat
  deriving Repr, DecidableEq

namespace Glyph

/-- Reads the text, newest glyph first, in front of the glyphs already read. -/
def readOnto (read : List Glyph) : List Char → List Glyph
  | [] => read
  | '\r' :: '\n' :: rest => readOnto (⟨'\n', 2⟩ :: read) rest
  | '\r' :: rest => readOnto (⟨'\n', 1⟩ :: read) rest
  | c :: rest => readOnto (⟨c, c.utf8Size⟩ :: read) rest

/-- The glyphs of a text. -/
def ofText (text : List Char) : List Glyph :=
  (readOnto [] text).reverse

end Glyph

end Text

open Text

/-- A byte offset in a text, and what follows there. -/
structure Cursor where
  offset : Nat
  rest : List Glyph
  deriving Repr

namespace Cursor

/-- The start of a text, behind the mark U+FEFF if the text begins with it. -/
def ofText (text : List Char) : Cursor :=
  match Glyph.ofText text with
  | [] => ⟨0, []⟩
  | glyph :: rest => if glyph.char = '\uFEFF' then ⟨glyph.bytes, rest⟩ else ⟨0, glyph :: rest⟩

/-- The next character. -/
def peek? (cursor : Cursor) : Option Char :=
  cursor.rest.head?.map (·.char)

/-- The character after the next one. -/
def second? (cursor : Cursor) : Option Char :=
  cursor.rest[1]?.map (·.char)

/-- The third character from here. -/
def third? (cursor : Cursor) : Option Char :=
  cursor.rest[2]?.map (·.char)

/-- Moves over a number of characters. -/
def advance : (count : Nat) → Cursor → Cursor
  | 0, cursor => cursor
  | _ + 1, ⟨offset, []⟩ => ⟨offset, []⟩
  | count + 1, ⟨offset, glyph :: rest⟩ => advance count ⟨offset + glyph.bytes, rest⟩

/-- The characters from here on that satisfy a condition, up to the first that does not, and the
place of that one. The characters are returned in front of those already taken, newest first. -/
def takeOnto (test : Char → Bool) (taken : List Char) (offset : Nat) :
    List Glyph → List Char × Cursor
  | [] => (taken, ⟨offset, []⟩)
  | glyph :: rest =>
    if test glyph.char then takeOnto test (glyph.char :: taken) (offset + glyph.bytes) rest
    else (taken, ⟨offset, glyph :: rest⟩)

/-- The longest run of characters from here on that satisfy a condition, and the place after it. -/
def takeWhile (cursor : Cursor) (test : Char → Bool) : List Char × Cursor :=
  let (taken, next) := takeOnto test [] cursor.offset cursor.rest
  (taken.reverse, next)

/-- Moves to the end of the line, in front of its terminator. -/
def skipLine (cursor : Cursor) : Cursor :=
  (cursor.takeWhile (· != '\n')).2

/-- Whether the characters from here on begin with the given ones. -/
def startsWith (cursor : Cursor) (word : List Char) : Bool :=
  (cursor.rest.take word.length).map (·.char) == word

end Cursor

end SourceOutline
