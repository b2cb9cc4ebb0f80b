import SourceOutline.Grammar.Pattern
import SourceOutline.Statement

/-!
# The grammar of statements

The rules for statements without blocks come first, then those for blocks, which are built from a
parser `suite` for the blocks inside them, and last the rule for whole programs.

A block is either the rest of the line behind a colon, or indented lines. Where it must be
indented lines, nothing but an indentation is possible, and its absence has faults of its own
(`indentation`).
-/

namespace SourceOutline

variable [CharacterNames]

namespace Grammar

open Grammar.Parser

/-- Shorthand for the token of a keyword. -/
abbrev word (keyword : Keyword) : Token.Kind := .keyword keyword

/-! ### Statements without blocks -/

/-- Names joined by points. -/
def dottedName : Parser String := do
  let parts ← separated (.symbol .dot) name
  pure (".".intercalate (parts.map (·.2)))

/-- An imported thing by its own name; the name it is given here is not kept. -/
def alias_ (item : Parser String) : Parser String := do
  let imported ← item
  if ← accept? (word .as_) then discard name
  pure imported

/-- Takes a name and keeps its spelling. -/
def bareName : Parser String := do
  pure (← name).2

/-- An `import`. -/
def importStatement : Parser Stmt := do
  let token ← expect (word .import_)
  let modules ← separated comma (alias_ dottedName)
  pure (.importModules token.start modules)

/-- Whether the token is one point or three. -/
def isDots (kind : Token.Kind) : Bool :=
  kind == .symbol .dot || kind == .symbol .ellipsis

/-- The names behind `import` in a `from`: some, some in brackets, or all. -/
def importedNames : Parser (List String) := do
  if ← accept? star then pure ["*"]
  else if ← accept? (opening .round) then
    let (names, _) ← commaList (fun kind => kind matches .name _) (alias_ bareName)
    discard (expect (closing .round))
    pure names
  else separated comma (alias_ bareName)

/-- A `from` with its `import`. There is a module, or there are points. -/
def importFromStatement : Parser Stmt := do
  let token ← expect (word .from_)
  let dots ← manyWhile isDots take
  let isBare := !dots.isEmpty && (← at? (word .import_))
  let module ← if isBare then pure none else some <$> dottedName
  discard (expect (word .import_))
  pure (.importFrom token.start module (← importedNames))

/-- A `del`. -/
def deleteStatement (rules : Rules) : Parser Stmt := do
  let token ← expect (word .del_)
  let (targets, _) ← commaList startsElement (operationOrStar rules)
  pure (.delete token.start (targets.map (·.expr)))

/-- A `return`, with values or without. -/
def returnStatement (rules : Rules) : Parser Unit := do
  discard (expect (word .return_))
  if ← atAny? startsElement then discard (testList rules)

/-- A `raise`, with an exception and its cause, with an exception or alone. -/
def raiseStatement (rules : Rules) : Parser Unit := do
  discard (expect (word .raise_))
  if ← atAny? startsTest then
    discard rules.test
    if ← accept? (word .from_) then discard rules.test

/-- An `assert`, with a message or without. -/
def assertStatement (rules : Rules) : Parser Unit := do
  discard (expect (word .assert_))
  discard rules.test
  if ← accept? comma then discard rules.test

/-- One type parameter. -/
def typeParameter (rules : Rules) : Parser Unit := do
  if ← atAny? fun kind => kind == star || kind == doubleStar then
    discard take
    discard name
  else
    discard name
    annotation rules.test

/-- Whether a type parameter can begin with the token. -/
def startsTypeParameter (kind : Token.Kind) : Bool :=
  kind == star || kind == doubleStar || kind matches .name _

/-- Type parameters in square brackets, if there are any. -/
def typeParameters (rules : Rules) : Parser Unit := do
  if ← accept? (opening .square) then
    discard (commaList startsTypeParameter (typeParameter rules))
    discard (expect (closing .square))

/-- The definition of a name for a type. -/
def typeStatement (rules : Rules) : Parser Unit := do
  discard (expect (word .type_))
  discard name
  typeParameters rules
  discard (expect assignSign)
  discard rules.test

/-- The values behind a first one, each behind an equals sign, the last one first. -/
def assignedValues (rules : Rules) (first : Expr) : Parser (List Expr) :=
  iterate (fun values => do
    if ← accept? assignSign then pure ((← testListOrYield rules).expr :: values, true)
    else pure (values, false)) [first]

/-- Whether the token updates a target. -/
def isUpdate : Token.Kind → Bool
  | .symbol (.update _) => true
  | _ => false

/-- An expression, or an assignment of one of the three kinds. -/
def valueStatement (rules : Rules) : Parser Stmt := do
  let start ← nextStart
  let startsStarred ← at? star
  let (first, isLone) ← tupleOf (testOrStar rules)
  if ← atAny? isUpdate then
    discard take
    discard (testListOrYield rules)
    pure (.augmentedAssign start first.expr)
  else if isLone && !startsStarred && (← at? colon) then
    discard take
    discard rules.test
    if ← accept? assignSign then discard (testListOrYield rules)
    pure (.annotatedAssign start first.expr)
  else
    match ← assignedValues rules first.expr with
    | _ :: target :: targets => pure (.assign start (target :: targets).reverse)
    | _ => pure (.simple start)

/-- A statement that is made of one token. -/
def isLoneStatement (kind : Token.Kind) : Bool :=
  kind == word .pass_ || kind == word .break_ || kind == word .continue_

/-- A statement without blocks. -/
def simpleStatement (rules : Rules) : Parser Stmt := do
  let start ← nextStart
  match ← peek? with
  | some (.keyword .import_) => importStatement
  | some (.keyword .from_) => importFromStatement
  | some (.keyword .del_) => deleteStatement rules
  | some (.keyword .return_) => returnStatement rules; pure (.simple start)
  | some (.keyword .raise_) => raiseStatement rules; pure (.simple start)
  | some (.keyword .assert_) => assertStatement rules; pure (.simple start)
  | some (.keyword .type_) => typeStatement rules; pure (.simple start)
  | some (.keyword .yield_) => discard (yieldValue rules); pure (.simple start)
  | some (.keyword .global_) | some (.keyword .nonlocal_) =>
    discard take
    discard (separated comma name)
    pure (.simple start)
  | _ =>
    if ← atAny? isLoneStatement then
      discard take
      pure (.simple start)
    else valueStatement rules

/-- Statements on one line, up to its end. -/
def simpleLine (rules : Rules) : Parser (List Stmt) := do
  let first ← simpleStatement rules
  let statements ← iterate (fun statements => do
    if ← accept? (.symbol .semicolon) then
      if ← at? .newline then pure (statements, false)
      else pure ((← simpleStatement rules) :: statements, true)
    else pure (statements, false)) [first]
  discard (expect .newline)
  pure statements.reverse

/-! ### Statements with blocks -/

/-- Takes the indentation of a block, where nothing else is possible. -/
def indentation : Parser Unit := do
  match ← peekToken? with
  | some token =>
    if token.kind = .indent then discard take else fail .missingIndent token.start
  | none => fail .strayUnindent (← lastStop)

/-- A colon and the block behind it. -/
def block (suite : Parser (List Stmt)) : Parser (List Stmt) := do
  discard (expect colon)
  suite

/-- The block of an `else`, if there is one. -/
def elseBlock (suite : Parser (List Stmt)) : Parser (List Stmt) := do
  if ← accept? (word .else_) then block suite else pure []

/-- An `if` with its block, and the `elif`s and the `else` behind it. -/
def ifStatement (rules : Rules) (suite : Parser (List Stmt)) : Parser Stmt := do
  let clause (isElif : Bool) : Parser (Nat × Bool × List Stmt) := do
    let token ← take
    discard (namedTest rules)
    pure (token.start, isElif, ← block suite)
  let first ← clause false
  let others ← manyWhile (· == word .elif_) (clause true)
  let last ← elseBlock suite
  let chain := others.foldr (fun (start, isElif, body) orelse =>
    [Stmt.conditional start isElif body orelse]) last
  pure (.conditional first.1 first.2.1 first.2.2 chain)

/-- A `while`. -/
def whileStatement (rules : Rules) (suite : Parser (List Stmt)) : Parser Stmt := do
  let token ← expect (word .while_)
  discard (namedTest rules)
  let body ← block suite
  pure (.whileLoop token.start body (← elseBlock suite))

/-- A `for`, of which any `async` is taken already. -/
def forStatement (rules : Rules) (suite : Parser (List Stmt)) (start : Nat) (isAsync : Bool) :
    Parser Stmt := do
  discard (expect (word .for_))
  let target ← targetList rules
  discard (expect (word .in_))
  discard (testList rules)
  let body ← block suite
  pure (.forLoop start isAsync target.expr body (← elseBlock suite))

/-- The target behind `as`, if there is one. -/
def withTarget (rules : Rules) : Parser (List Expr) := do
  if ← accept? (word .as_) then pure [(← rules.operation).expr] else pure []

/-- An item of a `with`, and its target. -/
def withItem (rules : Rules) : Parser (List Expr) := do
  discard rules.test
  withTarget rules

/-- The targets of items that are written in brackets, from the first `as` on. -/
def bracketedItems (rules : Rules) : Parser (List Expr) := do
  let (targets, _) ← commaListFrom (← withTarget rules) startsTest (withItem rules)
  discard (expect (closing .round))
  pure targets.flatten

/-- The targets of the items behind a first expression, whose own target comes next. -/
def itemsBehind (rules : Rules) : Parser (List Expr) := do
  let first ← withTarget rules
  let rest ← manyWhile (· == comma) do discard take; withItem rules
  pure (first ++ rest.flatten)

/-- Whether what stands in brackets may be items of a `with`. -/
def Enclosed.areItems : Enclosed → Bool
  | .values items _ => items.all (·.2)
  | _ => false

/-- The targets of a `with` that goes on with a round bracket. The bracket holds items if an `as`
comes in it, or if the block comes right behind it; otherwise it is part of an expression. -/
def withBracket (rules : Rules) : Parser (List Expr) := do
  let token ← expect (opening .round)
  let content ← enclosed rules
  let mayEnd := match content with
    | .values _ trailing => !trailing
    | _ => false
  if content.areItems && mayEnd && (← at? (word .as_)) then bracketedItems rules
  else
    discard (expect (closing .round))
    if content.areItems && (← at? colon) then pure []
    else
      discard (testRest rules (← ofEnclosed token.start content))
      itemsBehind rules

/-- The targets of the items of a `with`. -/
def withItems (rules : Rules) : Parser (List Expr) := do
  match ← peek? with
  | some (.symbol (.opening .round)) => withBracket rules
  | some (.string _) =>
    discard (testRest rules (← strings rules.embedded followsWithValue))
    itemsBehind rules
  | _ =>
    discard rules.test
    itemsBehind rules

/-- A `with`, of which any `async` is taken already. -/
def withStatement (rules : Rules) (suite : Parser (List Stmt)) (start : Nat) (isAsync : Bool) :
    Parser Stmt := do
  discard (expect (word .with_))
  let targets ← withItems rules
  pure (.withBlock start isAsync targets (← block suite))

/-- A handler. Those of one `try` are all with a star or all without. -/
def handler (rules : Rules) (suite : Parser (List Stmt)) (isGroup : Bool) : Parser Branch := do
  let token ← expect (word .except_)
  if isGroup then discard (expect star)
  if isGroup || !(← at? colon) then
    discard rules.test
    if ← accept? (word .as_) then discard name
  pure (.mk token.start (← block suite))

/-- A `try`, which has handlers or a `finally`. -/
def tryStatement (rules : Rules) (suite : Parser (List Stmt)) : Parser Stmt := do
  let token ← expect (word .try_)
  let body ← block suite
  if ← accept? (word .finally_) then pure (.tryBlock token.start body [] [] (← block suite))
  else
    require (· == word .except_)
    let isGroup := (← second?) == some star
    let handlers ← manyWhile (· == word .except_) (handler rules suite isGroup)
    let orelse ← elseBlock suite
    let finalbody ← if ← accept? (word .finally_) then block suite else pure []
    pure (.tryBlock token.start body handlers orelse finalbody)

/-- A case, which starts at its pattern. -/
def caseBranch (rules : Rules) (pattern : Parser PatternStart) (suite : Parser (List Stmt)) :
    Parser Branch := do
  discard (expect (word .case_))
  let start ← Pattern.patterns pattern
  if ← accept? (word .if_) then discard (namedTest rules)
  pure (.mk start (← block suite))

/-- A `match`. -/
def matchStatement (rules : Rules) (pattern : Parser PatternStart) (suite : Parser (List Stmt)) :
    Parser Stmt := do
  let token ← expect (word .match_)
  discard (commaList startsElement (starNamed rules))
  discard (expect colon)
  discard (expect .newline)
  indentation
  require (· == word .case_)
  let cases ← manyWhile (· == word .case_) (caseBranch rules pattern suite)
  discard (expect .dedent)
  pure (.matchBlock token.start cases)

/-- A decorator, up to the end of its line. -/
def decorator (rules : Rules) : Parser Span := do
  discard (expect (.symbol (.operator .matMul)))
  let value ← namedTest rules
  discard (expect .newline)
  pure value.expr.span

/-- The names of parameters, by their kinds. -/
def Parameters.signature (params : Parameters) : Signature where
  positionalOnly := params.positionalOnly.map (·.name)
  ordinary := params.ordinary.map (·.name)
  star := params.starParameter.map (·.name)
  keywordOnly := params.keywordOnly.map (·.name)
  doubleStar := params.doubleStarParameter.map (·.name)

/-- A function, of which the decorators and any `async` are taken already. The names of its
parameters are checked when what follows them is next. -/
def functionDefinition (rules : Rules) (suite : Parser (List Stmt)) (start : Nat)
    (isAsync : Bool) (decorators : List Span) : Parser Stmt := do
  discard (expect (word .def_))
  let (_, id) ← name
  typeParameters rules
  discard (expect (opening .round))
  let params ← parameters rules true (closing .round)
  discard (expect (closing .round))
  require fun kind => kind == .symbol .arrow || kind == colon
  check params.checkNames
  if ← accept? (.symbol .arrow) then discard rules.test
  let body ← block suite
  pure (.function start isAsync decorators id params.signature body)

/-- A class, of which the decorators are taken already. -/
def classDefinition (rules : Rules) (suite : Parser (List Stmt)) (decorators : List Span) :
    Parser Stmt := do
  let token ← expect (word .class_)
  let (_, id) ← name
  typeParameters rules
  if ← at? (opening .round) then arguments rules
  pure (.classDef token.start decorators id (← block suite))

/-- A definition with the decorators in front of it. -/
def decorated (rules : Rules) (suite : Parser (List Stmt)) : Parser Stmt := do
  let decorators ← manyWhile (· == .symbol (.operator .matMul)) (decorator rules)
  let start ← nextStart
  if ← at? (word .class_) then classDefinition rules suite decorators
  else
    let isAsync ← accept? (word .async_)
    functionDefinition rules suite start isAsync decorators

/-- A statement behind `async`. -/
def asyncStatement (rules : Rules) (suite : Parser (List Stmt)) : Parser Stmt := do
  let token ← expect (word .async_)
  match ← peek? with
  | some (.keyword .for_) => forStatement rules suite token.start true
  | some (.keyword .with_) => withStatement rules suite token.start true
  | _ => functionDefinition rules suite token.start true []

/-- The statements that begin with the next token: one with blocks, or all of a line. -/
def statements (rules : Rules) (pattern : Parser PatternStart) (suite : Parser (List Stmt)) :
    Parser (List Stmt) := do
  let start ← nextStart
  match ← peek? with
  | some (.keyword .if_) => pure [← ifStatement rules suite]
  | some (.keyword .while_) => pure [← whileStatement rules suite]
  | some (.keyword .for_) => pure [← forStatement rules suite start false]
  | some (.keyword .with_) => pure [← withStatement rules suite start false]
  | some (.keyword .try_) => pure [← tryStatement rules suite]
  | some (.keyword .match_) => pure [← matchStatement rules pattern suite]
  | some (.keyword .async_) => pure [← asyncStatement rules suite]
  | some (.keyword .def_) | some (.keyword .class_) | some (.symbol (.operator .matMul)) =>
    pure [← decorated rules suite]
  | _ => simpleLine rules

/-- A block behind its colon. -/
def suiteNext (rules : Rules) (pattern : Parser PatternStart) (suite : Parser (List Stmt)) :
    Parser (List Stmt) := do
  if ← accept? .newline then
    indentation
    let first ← statements rules pattern suite
    let rest ← manyWhile (· != .dedent) (statements rules pattern suite)
    discard (expect .dedent)
    pure (first ++ rest.flatten)
  else simpleLine rules

/-- The parser for blocks that are nested less than a given number of times. A level is made only
where the program gets to it. -/
def suiteLevel (rules : Rules) (pattern : Parser PatternStart) : (levels : Nat) →
    Parser (List Stmt)
  | 0 => unexpected
  | levels + 1 => fun state => suiteNext rules pattern (suiteLevel rules pattern levels) state

/-! ### Programs -/

/-- The statements of a whole program, nested less than a given number of times. Ends of lines
between them do not matter. -/
def program (rules : Rules) (depth : Nat) : Parser (List Stmt) := do
  let pattern := Pattern.level rules.embedded depth
  let parts ← manyWhile (fun _ => true) do
    if ← accept? .newline then pure []
    else statements rules pattern (suiteLevel rules pattern depth)
  pure parts.flatten

end Grammar

/-- Reads a text as a program. -/
def Program.ofText (text : List Char) : Except Fault (List Stmt) :=
  let stream := (TokenStream.ofText text).settleWords
  let depth := text.length + 1
  ((Grammar.program (Grammar.Rules.level depth) depth).run (Grammar.State.ofStream stream)).map
    (·.1)

end SourceOutline
