import SourceOutline.Token.Scan
import SourceOutline.Token.Layout

/-!
# The tokens of a text

`TokenStream.ofText` reads a text as a sequence of tokens. It ends where the text ends, or at the
first fault; the tokens before a fault are there all the same, since whoever reads the stream may
find something else wrong with them first.

Inside brackets the end of a line means nothing. Outside, it is a token, and the next line of code
may begin or end blocks, which are tokens too. At the end of the text the last line is ended if it
was not, and so are all blocks.
-/

namespace SourceOutline

open Text

/-- How a sequence of tokens ends. -/
inductive StreamEnd where
  /-- The whole text was read, up to this offset. -/
  | text (offset : Nat)
  /-- Reading stopped at a fault. -/
  | fault (fault : Fault)
  deriving Repr, DecidableEq

/-- The tokens of a text, and how they end. -/
structure TokenStream where
  tokens : List Token
  ending : StreamEnd
  deriving Repr

/-- What is known while a text is read. -/
structure Scanner where
  cursor : Cursor
  /-- Whether a line starts here, so that its indentation counts. -/
  atLineStart : Bool := true
  /-- The number of brackets that are open. -/
  nesting : Nat := 0
  /-- The indentations of the open blocks, the innermost first. -/
  blocks : List Indent := []
  /-- The tokens so far, the newest first. -/
  tokens : List Token := []

namespace Scanner

/-- Adds a token. -/
def push (scanner : Scanner) (kind : Token.Kind) (start stop : Nat) : Scanner :=
  { scanner with tokens := ⟨kind, start, stop⟩ :: scanner.tokens }

/-- Adds a number of empty tokens of one kind. -/
def pushEmpty (scanner : Scanner) (kind : Token.Kind) (offset : Nat) : (count : Nat) → Scanner
  | 0 => scanner
  | count + 1 => pushEmpty (scanner.push kind offset offset) kind offset count

/-- Begins or ends blocks as the indentation of the next line of code demands. -/
def layOut (scanner : Scanner) : Except Fault Scanner := do
  let reading ← Indent.read scanner.cursor
  let moved := { scanner with
    cursor := reading.next, atLineStart := reading.next.rest.isEmpty }
  let offset := reading.next.offset
  match reading.indent.compare? (scanner.blocks.headD {}) with
  | none => throw ⟨.incomparableIndent, offset⟩
  | some .eq => pure moved
  | some .gt =>
    let deeper := { moved with blocks := reading.indent :: scanner.blocks }
    pure (deeper.push .indent (offset - reading.indent.width) offset)
  | some .lt =>
    let (closed, left) ← reading.indent.closeTo offset scanner.blocks
    pure ({ moved with blocks := left }.pushEmpty .dedent offset closed)

/-- The stream of the tokens so far. -/
def stop (scanner : Scanner) (ending : StreamEnd) : TokenStream :=
  ⟨scanner.tokens.reverse, ending⟩

/-- What remains to be done where the text ends. -/
def finish (scanner : Scanner) : TokenStream :=
  let offset := scanner.cursor.offset
  if scanner.nesting = 0 then
    let ended := if scanner.atLineStart then scanner else scanner.push .newline offset offset
    (ended.pushEmpty .dedent offset ended.blocks.length).stop (.text offset)
  else scanner.stop (.fault ⟨.unexpectedEnd, offset⟩)

/-- Adds a token that was read from the place where the scanner is, and counts brackets. -/
def accept (scanner : Scanner) (kind : Token.Kind) (next : Cursor) : Except Fault Scanner :=
  let moved := { scanner.push kind scanner.cursor.offset next.offset with cursor := next }
  match kind with
  | .symbol (.opening _) => pure { moved with nesting := scanner.nesting + 1 }
  | .symbol (.closing _) =>
    match scanner.nesting with
    | 0 => throw ⟨.strayClosing, next.offset⟩
    | outer + 1 => pure { moved with nesting := outer }
  | _ => pure moved

/-- Ends a line, which means something outside of brackets only. -/
def endLine (scanner : Scanner) (next : Cursor) : Scanner :=
  if scanner.nesting = 0 then
    { scanner.push .newline scanner.cursor.offset next.offset with
      cursor := next, atLineStart := true }
  else { scanner with cursor := next }

/-- Reads on, at most for the given number of rounds. Each round takes a character at least. A fault
in the first token of a line comes before the beginnings and ends of blocks at that line. -/
def run : (rounds : Nat) → Scanner → TokenStream
  | 0, scanner => scanner.finish
  | rounds + 1, scanner =>
    match if scanner.atLineStart then scanner.layOut else .ok scanner with
    | .error fault => scanner.stop (.fault fault)
    | .ok laidOut =>
      match Scanned.scan laidOut.cursor with
      | .textEnd => laidOut.finish
      | .fault fault => scanner.stop (.fault fault)
      | .skipped next => run rounds { laidOut with cursor := next }
      | .lineEnd next => run rounds (laidOut.endLine next)
      | .token kind next =>
        match laidOut.accept kind next with
        | .ok accepted => run rounds accepted
        | .error fault => scanner.stop (.fault fault)

end Scanner

/-- The tokens of a text. -/
def TokenStream.ofText (text : List Char) : TokenStream :=
  Scanner.run (text.length + 1) { cursor := Cursor.ofText text }

end SourceOutline
