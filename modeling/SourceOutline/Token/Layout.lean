import SourceOutline.Token.Cursor
import SourceOutline.Fault

/-!
# Indentation

Blocks are laid out by the blanks at the start of a line. An `Indent` counts its tabs and its
spaces, and two of them are compared only where the answer does not hang on the width of a tab:
one is deeper than the other if it has more of one kind and no fewer of the other.

Lines without code do not count. `Indent.read` passes over them and answers with the indentation
of the first line that has code, and `Indent.closeTo` says how many open blocks such a line ends.
-/

namespace SourceOutline

open Text

/-- The blanks that a line of code begins with. -/
structure Indent where
  tabs : Nat := 0
  spaces : Nat := 0
  deriving Repr, DecidableEq

namespace Indent

/-- The number of bytes of the blanks. -/
def width (indent : Indent) : Nat :=
  indent.tabs + indent.spaces

/-- How one indentation compares with another, where that can be said. -/
def compare? (indent other : Indent) : Option Ordering :=
  if indent.tabs < other.tabs then
    if indent.spaces ≤ other.spaces then some .lt else none
  else if other.tabs < indent.tabs then
    if other.spaces ≤ indent.spaces then some .gt else none
  else some (compare indent.spaces other.spaces)

/-- Where the first line of code begins, and its indentation. -/
structure Reading where
  indent : Indent
  /-- The first character of code, or the end of the text. -/
  next : Cursor
  deriving Repr

/-- Passes over blanks, comments, form feeds and empty lines up to the first character of code.
All but the blanks start the count anew. -/
def readFrom (inComment : Bool) (indent : Indent) (offset : Nat) :
    List Glyph → Except Fault Reading
  | [] => pure ⟨{}, ⟨offset, []⟩⟩
  | glyph :: rest =>
    let next := offset + glyph.bytes
    if glyph.char = '\n' then readFrom false {} next rest
    else if inComment then readFrom true {} next rest
    else if glyph.char = ' ' then
      readFrom false { indent with spaces := indent.spaces + 1 } next rest
    else if glyph.char = '\t' then
      if indent.spaces = 0 then readFrom false { indent with tabs := indent.tabs + 1 } next rest
      else throw ⟨.tabAfterSpace, offset⟩
    else if glyph.char = '#' then readFrom true {} next rest
    else if glyph.char = '\x0c' then readFrom false {} next rest
    else pure ⟨indent, ⟨offset, glyph :: rest⟩⟩

/-- The indentation of the first line of code from the start of a line on. -/
def read (cursor : Cursor) : Except Fault Reading :=
  readFrom false {} cursor.offset cursor.rest

/-- Ends open blocks, the innermost first, until one has the given indentation: how many are
ended, and which stay open. -/
def closeTo (indent : Indent) (offset : Nat) : List Indent → Except Fault (Nat × List Indent)
  | [] => if indent = {} then pure (0, []) else throw ⟨.strayUnindent, offset⟩
  | block :: blocks =>
    match indent.compare? block with
    | none => throw ⟨.incomparableIndent, offset⟩
    | some .eq => pure (0, block :: blocks)
    | some .gt => throw ⟨.strayUnindent, offset⟩
    | some .lt => do
      let (closed, left) ← closeTo indent offset blocks
      pure (closed + 1, left)

end Indent

end SourceOutline
