import SourceOutline.Grammar.Basic
import SourceOutline.Grammar.Arguments
import SourceOutline.Grammar.Literal

/-!
# The grammar of expressions

Each rule is a parser for one kind of expression, built from parsers for the expressions inside it.
Those come as a record `Rules`; `Rules.next` builds one more level from it, and `Rules.level` a
given number of levels. A rule uses the record only behind a token that it has taken, so there are
never more levels in a program than tokens.

Arithmetic and logic are read flat, as operands and operators in turn: which operator binds more
tightly changes neither what is accepted, nor where the whole begins or ends, nor that it is an
operation.

An expression in round brackets is that expression itself, with its own place. Only what is built
on it begins at the bracket, which is why a parser answers with both (`Placed`).
-/

namespace SourceOutline.Grammar

open Grammar.Parser

variable [CharacterNames]

/-- An expression, and the place it takes up with the brackets around it. -/
structure Placed where
  expr : Expr
  span : Span
  deriving Repr, Inhabited

/-- The parsers for expressions inside of expressions. -/
structure Rules where
  /-- Any expression, except that it takes brackets to name a value or to star it. -/
  test : Parser Placed
  /-- An expression that is no condition and no `lambda`. -/
  disjunction : Parser Placed
  /-- An expression without comparisons and logic. -/
  operation : Parser Placed
  /-- The fault of an expression in a format string. -/
  embedded : Literal.Embedded

/-! ### Tokens that expressions begin with and are followed by -/

/-- Whether an expression can begin with the token. -/
def startsTest : Token.Kind → Bool
  | .name _ | .int _ | .float _ | .complex _ | .string _ => true
  | .keyword word =>
    word == .lambda_ || word == .not_ || word == .await_ || word == .true_ || word == .false_ ||
      word == .none_
  | .symbol sign =>
    match sign with
    | .opening _ | .tilde | .ellipsis | .operator .add | .operator .sub => true
    | _ => false
  | _ => false

/-- Whether an expression or a starred one can begin with the token. -/
def startsElement (kind : Token.Kind) : Bool :=
  startsTest kind || kind == .symbol (.operator .mul)

/-- Whether a value can be followed by the token, whatever it is part of. -/
def followsValue : Token.Kind → Bool
  | .newline => true
  | .keyword word =>
    word == .and_ || word == .as_ || word == .async_ || word == .else_ || word == .for_ ||
      word == .from_ || word == .if_ || word == .in_ || word == .is_ || word == .not_ ||
      word == .or_
  | .symbol sign =>
    match sign with
    | .operator _ | .update _ | .comparison _ | .closing _ | .opening .round | .opening .square
    | .assign | .dot | .comma | .colon | .semicolon => true
    | _ => false
  | _ => false

/-- Whether the first value after `with` can be followed by the token. -/
def followsWithValue (kind : Token.Kind) : Bool :=
  followsValue kind &&
    match kind with
    | .newline | .keyword .async_ | .keyword .else_ | .keyword .for_ | .keyword .from_
    | .symbol (.update _) | .symbol .assign | .symbol .semicolon => false
    | _ => true

/-- Whether a `lambda` can be followed by the token. -/
def followsLambda : Token.Kind → Bool
  | .newline => true
  | .keyword word => word == .as_ || word == .async_ || word == .for_ || word == .from_
  | .symbol sign =>
    match sign with
    | .update _ | .closing _ | .assign | .comma | .colon | .semicolon => true
    | _ => false
  | _ => false

/-- Requires that the next token has a property. -/
def require (test : Token.Kind → Bool) : Parser Unit := do
  if ← atAny? test then pure () else unexpected

/-- Fails with a fault that was found without taking tokens. -/
def check {α : Type} (result : Except Fault α) : Parser α :=
  match result with
  | .ok value => pure value
  | .error fault => throw fault

/-- The expression that ends at the token taken last. -/
def placedFrom (start : Nat) (make : Span → Expr) : Parser Placed := do
  let span : Span := ⟨start, ← lastStop⟩
  pure ⟨make span, span⟩

/-- Shorthand for the tokens of brackets and signs. -/
abbrev opening (bracket : Bracket) : Token.Kind := .symbol (.opening bracket)

@[inherit_doc opening]
abbrev closing (bracket : Bracket) : Token.Kind := .symbol (.closing bracket)

@[inherit_doc opening]
abbrev comma : Token.Kind := .symbol .comma

@[inherit_doc opening]
abbrev colon : Token.Kind := .symbol .colon

@[inherit_doc opening]
abbrev assignSign : Token.Kind := .symbol .assign

@[inherit_doc opening]
abbrev star : Token.Kind := .symbol (.operator .mul)

@[inherit_doc opening]
abbrev doubleStar : Token.Kind := .symbol (.operator .power)

/-! ### Literals -/

/-- Adjacent string literals, which are one value. They are read when the next token is one that
may come after them. -/
def strings (embedded : Literal.Embedded) (follows : Token.Kind → Bool) : Parser Placed := do
  let start ← nextStart
  let literals ← manyWhile (fun kind => kind matches .string _) do
    let token ← take
    match token.kind with
    | .string literal => pure (literal, token.start)
    | _ => unexpected
  let stop ← lastStop
  require follows
  let form ← check (Literal.readAll embedded literals)
  let span : Span := ⟨start, stop⟩
  pure ⟨.other span form, span⟩

/-- A token that is an expression by itself. -/
def lone (form : Expr.Form) : Parser Placed := do
  let token ← take
  placedFrom token.start (.other · form)

/-! ### Lists of expressions -/

/-- An expression, or a name with a value. -/
def namedTest (rules : Rules) : Parser Placed := do
  match ← peek?, ← second? with
  | some (.name _), some (.symbol .walrus) =>
    let token ← take
    discard take
    discard rules.test
    placedFrom token.start (.other · .named)
  | _, _ => rules.test

/-- A star and what it stands in front of. -/
def starred (item : Parser Placed) : Parser Placed := do
  let token ← expect star
  let value ← item
  placedFrom token.start (.starred · value.expr)

/-- An element of a display, a subscript or brackets. -/
def starNamed (rules : Rules) : Parser Placed := do
  if ← at? star then starred rules.operation else namedTest rules

/-- An expression or a starred one. -/
def testOrStar (rules : Rules) : Parser Placed := do
  if ← at? star then starred rules.operation else rules.test

/-- A possible target in a `for` or a `del`. -/
def operationOrStar (rules : Rules) : Parser Placed := do
  if ← at? star then starred rules.operation else rules.operation

/-- Items with commas between them and perhaps one behind: a lone item without a comma, or else a
tuple. The flag says whether it was a lone item. -/
def tupleOf (item : Parser Placed) : Parser (Placed × Bool) := do
  let (items, trailing) ← commaList startsElement item
  match items, trailing with
  | [one], false => pure (one, true)
  | _, _ =>
    let start := (items.head?.map (·.span.start)).getD 0
    pure (← placedFrom start (.tuple · (items.map (·.expr))), false)

/-- The value of an assignment, a `return`, a `for` or a statement of its own. -/
def testList (rules : Rules) : Parser Placed := do
  pure (← tupleOf (testOrStar rules)).1

/-- The target of a `for`. -/
def targetList (rules : Rules) : Parser Placed := do
  pure (← tupleOf (operationOrStar rules)).1

/-- A `yield`, with a value, with a source of values or alone. -/
def yieldValue (rules : Rules) : Parser Placed := do
  let token ← expect (.keyword .yield_)
  if ← accept? (.keyword .from_) then discard rules.test
  else if ← atAny? startsElement then discard (testList rules)
  placedFrom token.start (.other · .yieldValue)

/-- A list of values or a `yield`. -/
def testListOrYield (rules : Rules) : Parser Placed := do
  if ← at? (.keyword .yield_) then yieldValue rules else testList rules

/-! ### Comprehensions -/

/-- Whether a comprehension goes on with the token. -/
def startsLoop (kind : Token.Kind) : Bool :=
  kind == .keyword .for_ || kind == .keyword .async_

/-- The loops and conditions of a comprehension. -/
def comprehension (rules : Rules) : Parser Unit := do
  discard <| manyWhile startsLoop do
    discard (accept? (.keyword .async_))
    discard (expect (.keyword .for_))
    discard (targetList rules)
    discard (expect (.keyword .in_))
    discard rules.disjunction
    discard (manyWhile (· == .keyword .if_) do discard take; rules.disjunction)

/-! ### Brackets -/

/-- What stands behind an opening round bracket, up to the closing one. -/
inductive Enclosed where
  | nothing
  | yielded (value : Placed)
  /-- A doubly starred value, and where its stars stand. -/
  | doubleStarred (start : Nat)
  | generated
  /-- Values, each with whether it is neither starred nor named, and whether a comma ends them. -/
  | values (items : List (Placed × Bool)) (trailing : Bool)

/-- An element in round brackets, and whether it is neither starred nor named. -/
def enclosedItem (rules : Rules) : Parser (Placed × Bool) := do
  let isStarred ← at? star
  let isNamed := (← second?) == some (.symbol .walrus)
  pure (← starNamed rules, !isStarred && !isNamed)

/-- What stands behind an opening round bracket. -/
def enclosed (rules : Rules) : Parser Enclosed := do
  match ← peek? with
  | some (.symbol (.closing .round)) => pure .nothing
  | some (.keyword .yield_) => pure (.yielded (← yieldValue rules))
  | some (.symbol (.operator .power)) =>
    let token ← take
    discard rules.operation
    pure (.doubleStarred token.start)
  | _ =>
    let isStarred ← at? star
    let first ← enclosedItem rules
    if !isStarred && (← atAny? startsLoop) then
      comprehension rules
      pure .generated
    else
      let (items, trailing) ← commaListFrom first startsElement (enclosedItem rules)
      pure (.values items trailing)

/-- The expression in round brackets, of which the closing one is taken. `start` is where the
opening one stands. -/
def ofEnclosed (start : Nat) : Enclosed → Parser Placed
  | .nothing => placedFrom start (.tuple · [])
  | .yielded value => placedFrom start fun _ => value.expr
  | .doubleStarred stars => do
    require followsValue
    fail .loneDoubleStar stars
  | .generated => placedFrom start (.other · .generator)
  | .values [(item, _)] false =>
    match item.expr with
    | .starred span _ => do
      require followsValue
      fail .loneStar span.start
    | _ => placedFrom start fun _ => item.expr
  | .values items _ => placedFrom start (.tuple · (items.map (·.1.expr)))

/-- An expression in round brackets. -/
def parenthesized (rules : Rules) : Parser Placed := do
  let token ← expect (opening .round)
  let content ← enclosed rules
  discard (expect (closing .round))
  ofEnclosed token.start content

/-- A list display or a list comprehension. -/
def listDisplay (rules : Rules) : Parser Placed := do
  let token ← expect (opening .square)
  if ← accept? (closing .square) then placedFrom token.start (.list · [])
  else
    let first ← starNamed rules
    if ← atAny? startsLoop then
      comprehension rules
      discard (expect (closing .square))
      placedFrom token.start (.other · .listComprehension)
    else
      let (items, _) ← commaListFrom first startsElement (starNamed rules)
      discard (expect (closing .square))
      placedFrom token.start (.list · (items.map (·.expr)))

/-- A value with its key, or a mapping behind two stars. -/
def dictEntry (rules : Rules) : Parser Unit := do
  if ← accept? doubleStar then discard rules.operation
  else
    discard rules.test
    discard (expect colon)
    discard rules.test

/-- Whether a dict can go on with the token. -/
def startsEntry (kind : Token.Kind) : Bool :=
  startsTest kind || kind == doubleStar

/-- The rest of a dict display, behind its first entry. -/
def dictRest (rules : Rules) (start : Nat) : Parser Placed := do
  discard (commaListFrom () startsEntry (dictEntry rules))
  discard (expect (closing .curly))
  placedFrom start (.other · .dict)

/-- The rest of a set display, behind its first element. -/
def setRest (rules : Rules) (start : Nat) (first : Placed) : Parser Placed := do
  discard (commaListFrom first startsElement (starNamed rules))
  discard (expect (closing .curly))
  placedFrom start (.other · .set)

/-- The loops of a comprehension in curly brackets. -/
def curlyComprehension (rules : Rules) (start : Nat) (form : Expr.Form) : Parser Placed := do
  comprehension rules
  discard (expect (closing .curly))
  placedFrom start (.other · form)

/-- A dict or set display or comprehension. Its first element decides which. -/
def curlyDisplay (rules : Rules) : Parser Placed := do
  let token ← expect (opening .curly)
  let start := token.start
  if ← accept? (closing .curly) then placedFrom start (.other · .dict)
  else if ← accept? doubleStar then
    discard rules.operation
    dictRest rules start
  else if ← at? star then setRest rules start (← starred rules.operation)
  else
    let isNamed := (← second?) == some (.symbol .walrus)
    let first ← namedTest rules
    if !isNamed && (← at? colon) then
      discard take
      discard rules.test
      if ← atAny? startsLoop then curlyComprehension rules start .dictComprehension
      else dictRest rules start
    else if ← atAny? startsLoop then curlyComprehension rules start .setComprehension
    else setRest rules start first

/-! ### Calls, subscripts and members -/

/-- An argument. -/
def argument (rules : Rules) : Parser Argument := do
  let start ← nextStart
  match ← peek?, ← second? with
  | some (.symbol (.operator .mul)), _ =>
    discard take
    discard rules.test
    pure (.starred start)
  | some (.symbol (.operator .power)), _ =>
    discard take
    discard rules.test
    pure .doubleStarred
  | some (.name id), some (.symbol .assign) =>
    discard take
    discard take
    discard rules.test
    pure (.keyword start id)
  | _, _ =>
    let value ← namedTest rules
    if ← atAny? startsLoop then
      comprehension rules
      pure (.positional value.span.start)
    else pure (.positional value.expr.span.start)

/-- Whether an argument can begin with the token. -/
def startsArgument (kind : Token.Kind) : Bool :=
  startsElement kind || kind == doubleStar

/-- Arguments in round brackets. They are checked when the closing one comes next. -/
def arguments (rules : Rules) : Parser Unit := do
  discard (expect (opening .round))
  if !(← at? (closing .round)) then
    let (items, _) ← commaList startsArgument (argument rules)
    require (· == closing .round)
    check (Argument.check items)
  discard (expect (closing .round))

/-- A bound of a slice, if there is one. -/
def bound (rules : Rules) : Parser Unit := do
  if ← atAny? startsTest then discard rules.test

/-- A slice behind its first bound: the second, and perhaps a third. -/
def sliceRest (rules : Rules) : Parser Unit := do
  discard (expect colon)
  bound rules
  if ← accept? colon then bound rules

/-- An element of a subscript. -/
def subscriptItem (rules : Rules) : Parser Unit := do
  if ← at? colon then sliceRest rules
  else
    let isStarred ← at? star
    let isNamed := (← second?) == some (.symbol .walrus)
    discard (starNamed rules)
    if !isStarred && !isNamed && (← at? colon) then sliceRest rules

/-- A subscript in square brackets. -/
def subscripts (rules : Rules) : Parser Unit := do
  discard (expect (opening .square))
  discard (commaList (fun kind => startsElement kind || kind == colon) (subscriptItem rules))
  discard (expect (closing .square))

/-- What follows a value directly: calls, subscripts and members. -/
def trailers (rules : Rules) (value : Placed) : Parser Placed :=
  iterate (fun value => do
    let start := value.span.start
    match ← peek? with
    | some (.symbol (.opening .round)) =>
      arguments rules
      pure (← placedFrom start (.other · .call), true)
    | some (.symbol (.opening .square)) =>
      subscripts rules
      pure (← placedFrom start .subscript, true)
    | some (.symbol .dot) =>
      discard take
      discard name
      pure (← placedFrom start .member, true)
    | _ => pure (value, false)) value

/-! ### Operators -/

/-- A value by itself. -/
def atom (rules : Rules) : Parser Placed := do
  match ← peek? with
  | some (.name id) =>
    let token ← take
    placedFrom token.start (.name · id)
  | some (.string _) => strings rules.embedded followsValue
  | some (.int _) | some (.float _) | some (.complex _) => lone .literal
  | some (.keyword .true_) => lone .trueValue
  | some (.keyword .false_) => lone .falseValue
  | some (.keyword .none_) => lone .noneValue
  | some (.symbol .ellipsis) => lone .ellipsis
  | some (.symbol (.opening .round)) => parenthesized rules
  | some (.symbol (.opening .square)) => listDisplay rules
  | some (.symbol (.opening .curly)) => curlyDisplay rules
  | _ => unexpected

/-- A value with what follows it directly, perhaps awaited. -/
def primary (rules : Rules) : Parser Placed := do
  let start ← nextStart
  if ← accept? (.keyword .await_) then
    discard (trailers rules (← atom rules))
    placedFrom start (.other · .awaited)
  else trailers rules (← atom rules)

/-- Whether the token is an operator in front of one operand. -/
def isSign (kind : Token.Kind) : Bool :=
  kind == .symbol (.operator .add) || kind == .symbol (.operator .sub) || kind == .symbol .tilde

/-- An operand with the signs in front of it. -/
def operand (rules : Rules) : Parser Placed := do
  let start ← nextStart
  let signs ← manyWhile isSign take
  let value ← primary rules
  if signs.isEmpty then pure value else placedFrom start (.other · .operation)

/-- Whether the token is an operator between two operands. -/
def isOperator : Token.Kind → Bool
  | .symbol (.operator _) => true
  | _ => false

/-- Operators and operands behind a first operand. -/
def operationRest (rules : Rules) (first : Placed) : Parser Placed := do
  if ← atAny? isOperator then
    discard (manyWhile isOperator do discard take; operand rules)
    placedFrom first.span.start (.other · .operation)
  else pure first

/-- An expression without comparisons and logic. -/
def operation (rules : Rules) : Parser Placed := do
  operationRest rules (← operand rules)

/-- Whether the token begins a comparison sign. -/
def isComparison : Token.Kind → Bool
  | .symbol (.comparison _) | .keyword .in_ | .keyword .not_ | .keyword .is_ => true
  | _ => false

/-- A comparison sign, which may be of two words. -/
def comparisonSign : Parser Unit := do
  let token ← take
  match token.kind with
  | .keyword .not_ => discard (expect (.keyword .in_))
  | .keyword .is_ => discard (accept? (.keyword .not_))
  | _ => pure ()

/-- Comparisons behind a first operand. -/
def comparisonRest (rules : Rules) (first : Placed) : Parser Placed := do
  if ← atAny? isComparison then
    discard (manyWhile isComparison do comparisonSign; operation rules)
    placedFrom first.span.start (.other · .comparison)
  else pure first

/-- A comparison or less, perhaps negated. -/
def negation (rules : Rules) : Parser Placed := do
  let start ← nextStart
  let signs ← manyWhile (· == .keyword .not_) take
  let value ← comparisonRest rules (← operation rules)
  if signs.isEmpty then pure value else placedFrom start (.other · .operation)

/-- Whether the token joins two conditions. -/
def isJunction (kind : Token.Kind) : Bool :=
  kind == .keyword .and_ || kind == .keyword .or_

/-- Further conditions behind a first one. -/
def disjunctionRest (rules : Rules) (first : Placed) : Parser Placed := do
  if ← atAny? isJunction then
    discard (manyWhile isJunction do discard take; negation rules)
    placedFrom first.span.start (.other · .operation)
  else pure first

/-- An expression that is no condition and no `lambda`. -/
def disjunction (rules : Rules) : Parser Placed := do
  disjunctionRest rules (← negation rules)

/-- The condition and the other value behind a value, if there is a condition. -/
def conditionalRest (rules : Rules) (first : Placed) : Parser Placed := do
  if ← accept? (.keyword .if_) then
    discard rules.disjunction
    discard (expect (.keyword .else_))
    discard rules.test
    placedFrom first.span.start (.other · .conditional)
  else pure first

/-- The rest of an expression that begins with a value. -/
def testRest (rules : Rules) (first : Placed) : Parser Placed := do
  let value ← operationRest rules (← trailers rules first)
  conditionalRest rules (← disjunctionRest rules (← comparisonRest rules value))

/-! ### Parameters -/

/-- A colon and the annotation behind it, if they are there. -/
def annotation (item : Parser Placed) : Parser Unit := do
  if ← accept? colon then discard item

/-- A parameter: its name, its annotation if it may have one, and its default. -/
def parameter (rules : Rules) (annotated : Bool) : Parser Parameter := do
  let (token, id) ← name
  if annotated then annotation rules.test
  let hasDefault ← accept? assignSign
  if hasDefault then discard rules.test
  pure ⟨id, token.start, hasDefault⟩

/-- The parameter of a star or of two, if there is one. -/
def starParameter (rules : Rules) (annotated mayStar : Bool) : Parser (Option Parameter) := do
  match ← peek? with
  | some (.name id) =>
    let token ← take
    if annotated then annotation (if mayStar then testOrStar rules else rules.test)
    pure (some ⟨id, token.start, false⟩)
  | _ => pure none

/-- One parameter, a slash, a star or two, with what may come at this place. A slash comes once
and not first, after a star there is no other, and after two stars there is nothing. -/
def parameterItem (rules : Rules) (annotated : Bool) (params : Parameters) :
    Parser Parameters := do
  let start ← nextStart
  match ← peek? with
  | some (.name _) =>
    if params.doubleStar then unexpected
    else
      let param ← parameter rules annotated
      if params.star.isSome then
        pure { params with keywordOnly := params.keywordOnly ++ [param] }
      else pure { params with ordinary := params.ordinary ++ [param] }
  | some (.symbol (.operator .div)) =>
    if params.ordinary.isEmpty || !params.positionalOnly.isEmpty || params.star.isSome ||
        params.doubleStar then unexpected
    else
      discard take
      pure { params with positionalOnly := params.ordinary, ordinary := [] }
  | some (.symbol (.operator .mul)) =>
    if params.star.isSome || params.doubleStar then unexpected
    else
      discard take
      pure { params with
        star := some start, starParameter := ← starParameter rules annotated true }
  | some (.symbol (.operator .power)) =>
    if params.doubleStar then unexpected
    else
      discard take
      pure { params with
        doubleStar := true, doubleStarParameter := ← starParameter rules annotated false }
  | _ => unexpected

/-- Parameters up to a closing token. The rules on their order are checked when that token comes
next. -/
def parameters (rules : Rules) (annotated : Bool) (close : Token.Kind) : Parser Parameters := do
  if ← at? close then pure {}
  else
    let first ← parameterItem rules annotated {}
    let params ← iterate (fun params => do
      if ← accept? comma then
        if ← at? close then pure (params, false)
        else pure (← parameterItem rules annotated params, true)
      else pure (params, false)) first
    require (· == close)
    check params.checkOrder
    pure params

/-- A `lambda`. The names of its parameters are checked when its whole body is read. -/
def lambda (rules : Rules) : Parser Placed := do
  let token ← expect (.keyword .lambda_)
  let params ← parameters rules false colon
  discard (expect colon)
  discard rules.test
  let value ← placedFrom token.start (.other · .lambda)
  require followsLambda
  check params.checkNames
  pure value

/-- Any expression, except that it takes brackets to name a value or to star it. -/
def test (rules : Rules) : Parser Placed := do
  if ← at? (.keyword .lambda_) then lambda rules
  else conditionalRest rules (← disjunction rules)

/-! ### Expressions in format strings -/

/-- A list of values and nothing after it but ends of lines. -/
def loneTestList (rules : Rules) : Parser Unit := do
  discard (testList rules)
  discard (manyWhile (· == .newline) take)
  if (← peekToken?).isSome then unexpected

/-- The fault of an expression in a format string. It is read with brackets around it. -/
def embedded (rules : Rules) : Literal.Embedded := fun text =>
  let stream := (TokenStream.ofText ('(' :: text ++ [')'])).settleAsNames
  match (loneTestList rules).run (State.ofStream stream) with
  | .ok _ => .ok ()
  | .error fault => .error fault.cause

/-! ### Levels -/

namespace Rules

/-- The rules for expressions that hold expressions of the given rules. -/
def next (rules : Rules) : Rules where
  test := Grammar.test rules
  disjunction := Grammar.disjunction rules
  operation := Grammar.operation rules
  embedded := Grammar.embedded rules

/-- The rules for no expression. -/
def none : Rules where
  test := unexpected
  disjunction := unexpected
  operation := unexpected
  embedded := fun _ => .error .unexpectedEnd

/-- The rules for expressions that are nested less than a given number of times. -/
def level (depth : Nat) : Rules :=
  depth.repeat next none

end Rules

end SourceOutline.Grammar
