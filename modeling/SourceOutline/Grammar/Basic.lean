import SourceOutline.Token.SoftKeyword

/-!
# Reading tokens

A `Parser` takes tokens from the front of what is left of a program and either answers with a value
or fails with a fault. It decides by looking at the next token, and sometimes at the one after it;
it never goes back. So the fault of a program that breaks off is always found at the first token
with which no program goes on (`unexpected`).

Looking at the next token is already a use of it: where the text cannot be read any further, the
fault of that place is the one that counts (`peek?`).
-/

namespace SourceOutline.Grammar

/-- What is left of a program. -/
structure State where
  tokens : List Token
  ending : StreamEnd
  /-- Where the token taken last ends. -/
  lastStop : Nat := 0
  /-- A number of rounds that no loop over the tokens exceeds. -/
  rounds : Nat
  deriving Repr

/-- A function from what is left of a program to a value and what is left then. -/
abbrev Parser := StateT State (Except Fault)

/-- The state in front of all tokens. -/
def State.ofStream (stream : TokenStream) : State :=
  { tokens := stream.tokens, ending := stream.ending, rounds := stream.tokens.length + 1 }

namespace Parser

variable {α : Type}

/-- Fails for a reason, at an offset. -/
def fail (cause : Cause) (offset : Nat) : Parser α :=
  throw ⟨cause, offset⟩

/-- The next token; there is none at the end of the program. -/
def peekToken? : Parser (Option Token) := do
  let state ← get
  match state.tokens, state.ending with
  | token :: _, _ => pure (some token)
  | [], .text _ => pure none
  | [], .fault fault => throw fault

/-- What the next token is. -/
def peek? : Parser (Option Token.Kind) := do
  pure ((← peekToken?).map (·.kind))

/-- What the token after the next one is, where it can be read. -/
def second? : Parser (Option Token.Kind) := do
  pure ((← get).tokens[1]?.map (·.kind))

/-- Whether the next token is the given one. -/
def at? (kind : Token.Kind) : Parser Bool := do
  pure ((← peek?) == some kind)

/-- Whether the next token has a property; the end of the program has none. -/
def atAny? (test : Token.Kind → Bool) : Parser Bool := do
  pure (((← peek?).map test).getD false)

/-- Fails at the next token. -/
def unexpected : Parser α := do
  match ← peekToken? with
  | some token =>
    if token.kind = .indent then fail .unexpectedIndent token.start
    else fail (.unexpectedToken token.kind) token.start
  | none => fail .unexpectedEndOfProgram (← get).lastStop

/-- Takes the next token. -/
def take : Parser Token := do
  match ← peekToken? with
  | some token =>
    modify fun state => { state with tokens := state.tokens.tail, lastStop := token.stop }
    pure token
  | none => unexpected

/-- Takes the next token, which must be the given one. -/
def expect (kind : Token.Kind) : Parser Token := do
  if ← at? kind then take else unexpected

/-- Takes the next token if it is the given one. -/
def accept? (kind : Token.Kind) : Parser Bool := do
  if ← at? kind then
    discard take
    pure true
  else pure false

/-- Takes a name. -/
def name : Parser (Token × String) := do
  match ← peek? with
  | some (.name id) => pure (← take, id)
  | _ => unexpected

/-- Where the next token starts; the end of the last one, at the end of the program. -/
def nextStart : Parser Nat := do
  match ← peekToken? with
  | some token => pure token.start
  | none => pure (← get).lastStop

/-- Where the last token ended. -/
def lastStop : Parser Nat := do
  pure (← get).lastStop

/-- Repeats a step on a value until it says that it is done, or the rounds are used up. -/
def loop (step : α → Parser (α × Bool)) : (rounds : Nat) → α → Parser α
  | 0, value => pure value
  | rounds + 1, value => do
    let (value, more) ← step value
    if more then loop step rounds value else pure value

/-- Repeats a step on a value until it says that it is done. Every step that asks for another one
takes a token, so there is always a round left for it. -/
def iterate (step : α → Parser (α × Bool)) (value : α) : Parser α := do
  loop step (← get).rounds value

/-- Repeats an item as long as the next token has a property. -/
def manyWhile (test : Token.Kind → Bool) (item : Parser α) : Parser (List α) := do
  let items ← iterate (fun items => do
    if ← atAny? test then pure ((← item) :: items, true) else pure (items, false)) []
  pure items.reverse

/-- Items that are separated by a token, at least one. -/
def separated (separator : Token.Kind) (item : Parser α) : Parser (List α) := do
  let first ← item
  let rest ← manyWhile (· == separator) (do discard take; item)
  pure (first :: rest)

/-- Items separated by commas, of which the first is taken already, and whether a comma ends them.
After a comma there is another item if the next token is one that items start with. -/
def commaListFrom (first : α) (starts : Token.Kind → Bool) (item : Parser α) :
    Parser (List α × Bool) := do
  let (items, trailing) ← iterate (fun (items, _) => do
    if ← accept? (.symbol .comma) then
      if ← atAny? starts then pure (((← item) :: items, false), true)
      else pure ((items, true), false)
    else pure ((items, false), false)) ([first], false)
  pure (items.reverse, trailing)

/-- Items separated by commas, at least one, and whether a comma ends them. -/
def commaList (starts : Token.Kind → Bool) (item : Parser α) : Parser (List α × Bool) := do
  commaListFrom (← item) starts item

end Parser

end SourceOutline.Grammar
