import SourceOutline.Grammar.Expression

/-!
# The grammar of patterns

What stands between `case` and its block. Of a pattern only the place is of interest later: a case
begins where its pattern does. A pattern in round brackets is that pattern itself, with its own
place, as it is with expressions.

Patterns nest in brackets only, so a level of them is built from the level inside, `inner`.
-/

namespace SourceOutline.Grammar

open Grammar.Parser

variable [CharacterNames]

/-- Where a pattern starts, and where it starts with the brackets around it. -/
structure PatternStart where
  own : Nat
  outer : Nat
  deriving Repr, Inhabited

namespace Pattern

/-- A pattern that has no brackets of its own around it. -/
def plainStart (start : Nat) : PatternStart :=
  ⟨start, start⟩

/-- Whether a literal pattern can be followed by the token. -/
def followsLiteral : Token.Kind → Bool
  | .keyword word => word == .if_ || word == .as_
  | .symbol sign =>
    match sign with
    | .closing _ | .colon | .comma | .operator .bitOr => true
    | _ => false
  | _ => false

/-- Whether a whole pattern can be followed by the token. -/
def followsPattern : Token.Kind → Bool
  | .keyword word => word == .if_
  | .symbol sign =>
    match sign with
    | .closing _ | .colon | .comma => true
    | _ => false
  | _ => false

/-- Whether a pattern can begin with the token. -/
def startsPattern : Token.Kind → Bool
  | .name _ | .int _ | .float _ | .complex _ | .string _ => true
  | .keyword word => word == .none_ || word == .true_ || word == .false_
  | .symbol sign =>
    match sign with
    | .opening _ | .operator .sub | .operator .mul => true
    | _ => false
  | _ => false

/-- Whether the token is a number. -/
def isNumber : Token.Kind → Bool
  | .int _ | .float _ | .complex _ => true
  | _ => false

/-- Takes a number. -/
def number : Parser Unit := do
  require isNumber
  discard take

/-- A number with a sign or none, and perhaps a second one added or subtracted. -/
def constant : Parser Unit := do
  discard (accept? (.symbol (.operator .sub)))
  number
  match ← peek? with
  | some (.symbol (.operator .add)) | some (.symbol (.operator .sub)) =>
    discard take
    number
  | _ => pure ()

/-- Members behind a name. -/
def members : Parser Unit := do
  discard (manyWhile (· == .symbol .dot) do discard take; name)

/-- Whether a key of a mapping can begin with the token. -/
def startsKey (kind : Token.Kind) : Bool :=
  startsPattern kind &&
    match kind with
    | .symbol (.opening _) | .symbol (.operator .mul) => false
    | _ => true

/-- A key of a mapping: a literal, or a name with members. -/
def key (embedded : Literal.Embedded) : Parser Unit := do
  match ← peek? with
  | some (.name _) =>
    discard take
    require (· == .symbol .dot)
    members
  | some (.string _) => discard (strings embedded (· == colon))
  | some (.keyword .none_) | some (.keyword .true_) | some (.keyword .false_) => discard take
  | _ => constant

/-- An entry of a mapping, or the name for the rest of it. The answer says which it was. -/
def entry (embedded : Literal.Embedded) (inner : Parser PatternStart) : Parser Bool := do
  if ← accept? doubleStar then
    discard name
    pure true
  else
    key embedded
    discard (expect colon)
    discard inner
    pure false

/-- A mapping. The name for the rest comes last. -/
def mapping (embedded : Literal.Embedded) (inner : Parser PatternStart) : Parser Unit := do
  discard (expect (opening .curly))
  if !(← at? (closing .curly)) then
    let first ← entry embedded inner
    discard <| iterate (fun ended => do
      if ← accept? comma then
        if !ended && (← atAny? fun kind => startsKey kind || kind == doubleStar) then
          pure (← entry embedded inner, true)
        else pure (ended, false)
      else pure (ended, false)) first
  discard (expect (closing .curly))

/-- An argument of a class pattern. After one with a keyword, all must have one. The answer says
whether this one had. -/
def classArgument (inner : Parser PatternStart) (afterKeyword : Bool) : Parser Bool := do
  let isKeyword := (← second?) == some assignSign
  if afterKeyword || isKeyword then
    discard name
    discard (expect assignSign)
    discard inner
    pure true
  else
    discard inner
    pure false

/-- The arguments of a class pattern. -/
def classArguments (inner : Parser PatternStart) : Parser Unit := do
  discard (expect (opening .round))
  if !(← at? (closing .round)) then
    let first ← classArgument inner false
    discard <| iterate (fun afterKeyword => do
      if ← accept? comma then
        if ← atAny? startsPattern then pure (← classArgument inner afterKeyword, true)
        else pure (afterKeyword, false)
      else pure (afterKeyword, false)) first
  discard (expect (closing .round))

/-- A name, which captures; or with members, which is compared; or either with arguments. -/
def named (inner : Parser PatternStart) : Parser Unit := do
  discard name
  members
  if ← at? (opening .round) then classArguments inner

/-- Patterns in round brackets: a lone one without a comma is that pattern itself. -/
def parenthesized (inner : Parser PatternStart) : Parser PatternStart := do
  let token ← expect (opening .round)
  if ← accept? (closing .round) then pure (plainStart token.start)
  else
    let (items, trailing) ← commaList startsPattern inner
    discard (expect (closing .round))
    match items, trailing with
    | [one], false => pure ⟨one.own, token.start⟩
    | _, _ => pure (plainStart token.start)

/-- Patterns in square brackets. -/
def sequence (inner : Parser PatternStart) : Parser Unit := do
  discard (expect (opening .square))
  if !(← at? (closing .square)) then discard (commaList startsPattern inner)
  discard (expect (closing .square))

/-- A pattern without alternatives and without a name for the whole. -/
def closed (embedded : Literal.Embedded) (inner : Parser PatternStart) :
    Parser PatternStart := do
  let start ← nextStart
  match ← peek? with
  | some (.name _) => named inner
  | some (.string _) => discard (strings embedded followsLiteral)
  | some (.keyword .none_) | some (.keyword .true_) | some (.keyword .false_) => discard take
  | some (.symbol (.operator .mul)) =>
    discard take
    discard name
  | some (.symbol (.opening .round)) => return ← parenthesized inner
  | some (.symbol (.opening .square)) => sequence inner
  | some (.symbol (.opening .curly)) => mapping embedded inner
  | _ => constant
  pure (plainStart start)

/-- A pattern: alternatives, and perhaps a name for the whole, which must not be the wildcard. -/
def pattern (embedded : Literal.Embedded) (inner : Parser PatternStart) :
    Parser PatternStart := do
  let first ← closed embedded inner
  let isChoice ← at? (.symbol (.operator .bitOr))
  discard (manyWhile (· == .symbol (.operator .bitOr)) do discard take; closed embedded inner)
  let whole := if isChoice then plainStart first.outer else first
  if ← accept? (.keyword .as_) then
    let (_, id) ← name
    require followsPattern
    if id = "_" then fail .wildcardName whole.outer
    pure (plainStart whole.outer)
  else pure whole

/-- The parser for patterns that are nested less than a given number of times. A level is made only
where the program gets to it. -/
def level (embedded : Literal.Embedded) : (depth : Nat) → Parser PatternStart
  | 0 => unexpected
  | depth + 1 => fun state => pattern embedded (level embedded depth) state

/-- The patterns of a case: one, or several with commas, which start at the first. -/
def patterns (single : Parser PatternStart) : Parser Nat := do
  let (items, trailing) ← commaList startsPattern single
  match items, trailing with
  | [one], false => pure one.own
  | _, _ => pure (items.headD default).outer

end Pattern

end SourceOutline.Grammar
