import SourceOutline.Node
import SourceOutline.Statement
import SourceOutline.Text.Blank

/-!
# The outline of a program

`Outline.ofProgram` turns the statements of a program into its outline tree. A statement becomes a
node with the statements of its blocks as children, in source order; handlers and cases become
nodes of their own between a statement and theirs.

A node's position is where its statement starts, with one exception: a decorated definition is
placed at the first line of code behind its decorators, which is looked for in the text
(`Outline.keywordOffset`). The text also tells whether a condition was written as `elif`.
-/

namespace SourceOutline

/-- A text with the table of its lines. -/
structure Source where
  text : List Char
  table : LineTable

/-- The text with its table. -/
def Source.ofText (text : List Char) : Source :=
  ⟨text, LineTable.ofText text⟩

/-- The position of an offset. -/
def Source.position (source : Source) (offset : Nat) : Position :=
  source.table.position offset

namespace Outline

/-! ### Where decorated definitions begin -/

/-- The offset behind the first line feed, and the text from there, if there is a line feed.
`offset` is where the text begins. -/
def afterLineFeed? (offset : Nat) : List Char → Option (Nat × List Char)
  | [] => none
  | c :: rest =>
    if c = '\n' then some (offset + 1, rest) else afterLineFeed? (offset + c.utf8Size) rest

/-- Whether a line has code: it is not blank, and does not begin with a comment. -/
def isCodeLine (line : List Char) : Bool :=
  let code := Text.trimStart line
  !(Text.trimEnd code).isEmpty && code.head? != some '#'

/-- Where the code of a line is: behind the blanks that the line begins with. `offset` is where the
line begins. -/
def codeOffset (offset : Nat) (line : List Char) : Nat :=
  offset + (Text.width line - Text.width (Text.trimStart line))

/-- Where the code of the first line that has any is. `line` is what was read of a line, newest
character first, and `offset` is where that line begins. -/
def firstCode? (offset : Nat) (line : List Char) : List Char → Option Nat
  | [] => if isCodeLine line.reverse then some (codeOffset offset line.reverse) else none
  | c :: rest =>
    if c = '\n' then
      let ended := (c :: line).reverse
      if isCodeLine ended then some (codeOffset offset ended)
      else firstCode? (offset + Text.width ended) [] rest
    else firstCode? offset (c :: line) rest

/-- Where a definition is placed: at the first code behind the line feed behind its last decorator.
Without decorators, line feed or code it is where the definition starts. -/
def keywordOffset (text : List Char) (start : Nat) (decorators : List Span) : Nat :=
  match decorators.getLast? with
  | none => start
  | some last =>
    match afterLineFeed? last.stop (Text.dropBytes last.stop text) with
    | none => start
    | some (offset, rest) => (firstCode? offset [] rest).getD start

/-! ### Nodes of statements -/

/-- The word by which a further condition of an `if` is known in the text. -/
def elifWord : List Char :=
  "elif".toList

/-- The shape of a target. -/
def shape : Expr → TargetShape
  | .name _ id => .name id
  | .member _ => .member
  | .subscript _ => .subscript
  | .tuple .. | .list .. | .starred .. => .unpacking
  | .other .. => .other

mutual

/-- The node of a statement. -/
def ofStmt (source : Source) : Stmt → Node
  | .function start isAsync decorators name signature body =>
    .mk (if isAsync then .other .asyncFunction else .function name signature.ordinary)
      (source.position (keywordOffset source.text start decorators)) (ofStmts source body)
  | .classDef start decorators name body =>
    .mk (.classDef name) (source.position (keywordOffset source.text start decorators))
      (ofStmts source body)
  | .forLoop start isAsync _ body orelse =>
    .mk (if isAsync then .other .asyncFor else .forLoop) (source.position start)
      (ofStmts source body ++ ofStmts source orelse)
  | .whileLoop start body orelse =>
    .mk .whileLoop (source.position start) (ofStmts source body ++ ofStmts source orelse)
  | .conditional start _ body orelse =>
    .mk (if Text.standsAt elifWord start source.text then .other .elifClause else .conditional)
      (source.position start)
      (ofStmts source body ++ ofStmts source orelse)
  | .withBlock start isAsync _ body =>
    .mk (.other (if isAsync then .asyncWith else .withBlock)) (source.position start)
      (ofStmts source body)
  | .tryBlock start body handlers orelse finalbody =>
    .mk (.other .tryBlock) (source.position start)
      (ofStmts source body ++ ofBranches source .handler handlers ++ ofStmts source orelse ++
        ofStmts source finalbody)
  | .matchBlock start cases =>
    .mk (.other .matchBlock) (source.position start) (ofBranches source .matchCase cases)
  | .assign start targets => .mk (.assign (targets.map shape)) (source.position start) []
  | .augmentedAssign start _ => .mk (.other .augmentedAssign) (source.position start) []
  | .annotatedAssign start _ => .mk (.other .annotatedAssign) (source.position start) []
  | .importModules start modules => .mk (.importModules modules) (source.position start) []
  | .importFrom start module names => .mk (.importFrom module names) (source.position start) []
  | .delete start _ => .mk (.other .statement) (source.position start) []
  | .simple start => .mk (.other .statement) (source.position start) []

/-- The nodes of statements. -/
def ofStmts (source : Source) : List Stmt → List Node
  | [] => []
  | stmt :: rest => ofStmt source stmt :: ofStmts source rest

/-- The nodes of handlers or of cases. -/
def ofBranches (source : Source) (label : Node.Label) : List Branch → List Node
  | [] => []
  | .mk start body :: rest =>
    .mk (.other label) (source.position start) (ofStmts source body) ::
      ofBranches source label rest

end

/-- The outline of a program whose text is given. Its root stands for the whole of it. -/
def ofProgram (source : Source) (program : List Stmt) : Node :=
  .mk .module {} (ofStmts source program)

end Outline

end SourceOutline
