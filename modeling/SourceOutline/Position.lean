import SourceOutline.Text.Utf8

/-!
# Positions in a source text

A place in a text is known by its byte offset and reported as a `Position`, a line and a column,
both counted from one; columns count characters. A `LineTable` is made once for a text and turns
any offset into a position: a binary search finds the line, and counting the characters before
the offset in that line gives the column.

A line ends after a line feed, after a carriage return and a line feed, or after a carriage return
alone. An offset past the end of the text stands for the end, and one inside a character for the
start of that character, so every offset has a position.
-/

namespace SourceOutline

/-- A line and a column, both counted from one. -/
structure Position where
  line : Nat := 1
  column : Nat := 1
  deriving Repr, DecidableEq, Inhabited

/-- A line of a text: the offset where it starts, and the text from there on. -/
structure Line where
  start : Nat
  /-- The text from the start of this line to the end of the last one. -/
  rest : List Char
  deriving Repr

/-- The lines of a text, in order; there is always a first one. -/
structure LineTable where
  lines : Array Line
  deriving Repr

namespace LineTable

/-- Adds the lines that start after the given offset, which `text` begins at. -/
def addLines (lines : Array Line) (offset : Nat) : List Char → Array Line
  | [] => lines
  | '\n' :: rest => addLines (lines.push ⟨offset + 1, rest⟩) (offset + 1) rest
  | '\r' :: '\n' :: rest => addLines (lines.push ⟨offset + 2, rest⟩) (offset + 2) rest
  | '\r' :: rest => addLines (lines.push ⟨offset + 1, rest⟩) (offset + 1) rest
  | c :: rest => addLines lines (offset + c.utf8Size) rest

/-- The lines of a text. -/
def ofText (text : List Char) : LineTable :=
  ⟨addLines #[⟨0, text⟩] 0 text⟩

/-- The offsets at which the lines start. -/
def starts (table : LineTable) : Array Nat :=
  table.lines.map (·.start)

/-- The number of lines. -/
def lineCount (table : LineTable) : Nat :=
  table.lines.size

/-- Whether the line with the given number, counted from zero, starts at or before the offset. -/
def startsBy (table : LineTable) (offset index : Nat) : Bool :=
  match table.lines[index]? with
  | some line => line.start ≤ offset
  | none => false

/-- Halves the range from `low` to `high` until one line is left. The line `low` starts at or
before the offset and the line `high` does not, and each round keeps it so. -/
def search (table : LineTable) (offset : Nat) : (rounds low high : Nat) → Nat
  | 0, low, _ => low
  | rounds + 1, low, high =>
    if high ≤ low + 1 then low
    else
      let middle := (low + high) / 2
      if table.startsBy offset middle then search table offset rounds middle high
      else search table offset rounds low middle

/-- The number, counted from zero, of the last line that starts at or before the offset. -/
def lineOf (table : LineTable) (offset : Nat) : Nat :=
  table.search offset table.lines.size 0 table.lines.size

/-- The position of a byte offset. -/
def position (table : LineTable) (offset : Nat) : Position :=
  let index := table.lineOf offset
  match table.lines[index]? with
  | some line => ⟨index + 1, Text.charsWithin (offset - line.start) line.rest + 1⟩
  | none => {}

end LineTable

end SourceOutline
