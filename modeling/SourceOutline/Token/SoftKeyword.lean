import SourceOutline.Token.Stream

/-!
# Words that are keywords in some places

`match`, `case` and `type` are keywords only where they begin a statement of their own kind, and
names everywhere else. Whether they do is decided from the tokens of their line alone:

* `match` and `case` must be the first token of a line that has a colon outside of brackets; the
  colon must not follow at once, and must not be the one of a `lambda`;
* `type` must be the first token of a line and be followed by a name, by type parameters in square
  brackets or none, and by an equals sign.
-/

namespace SourceOutline

namespace SoftKeyword

/-- What is known on the way to the end of a line. -/
structure LineView where
  /-- Brackets opened less brackets closed. -/
  depth : Int := 0
  /-- Whether a `lambda` waits for its colon. -/
  inLambda : Bool := false

/-- Whether a colon of the line's own comes in these tokens; the first of them is not counted as
one if `first` is set. -/
def hasColon (view : LineView) (first : Bool) : List Token → Bool
  | [] => false
  | token :: rest =>
    match token.kind with
    | .newline => false
    | .keyword .lambda_ =>
      hasColon (if view.depth = 0 then { view with inLambda := true } else view) false rest
    | .symbol .colon =>
      if view.depth = 0 then
        if view.inLambda then hasColon { view with inLambda := false } false rest
        else if first then hasColon view false rest
        else true
      else hasColon view false rest
    | .symbol (.opening _) => hasColon { view with depth := view.depth + 1 } false rest
    | .symbol (.closing _) => hasColon { view with depth := view.depth - 1 } false rest
    | _ => hasColon view false rest

/-- Whether an equals sign comes in these tokens, behind groups in square brackets or nothing. -/
def hasAssign (depth : Int) : List Token → Bool
  | [] => false
  | token :: rest =>
    match token.kind with
    | .newline => false
    | .symbol .assign => depth == 0 || (decide (0 < depth) && hasAssign depth rest)
    | .symbol (.opening .square) => hasAssign (depth + 1) rest
    | .symbol (.closing .square) => hasAssign (depth - 1) rest
    | _ => decide (0 < depth) && hasAssign depth rest

/-- Whether a token can be the name of a type. -/
def isTypeName (token : Token) : Bool :=
  match token.kind with
  | .name _ | .keyword .type_ | .keyword .match_ | .keyword .case_ => true
  | _ => false

/-- Whether a word is a keyword at the start of a line that goes on with the given tokens. -/
def opensStatement (word : Keyword) (rest : List Token) : Bool :=
  match word with
  | .match_ | .case_ => hasColon {} true rest
  | .type_ =>
    match rest with
    | [] => false
    | token :: rest => isTypeName token && hasAssign 0 rest
  | _ => true

/-- Whether a word is a keyword in some places only. -/
def isSoft : Keyword → Bool
  | .match_ | .case_ | .type_ => true
  | _ => false

/-- The token as it is in its place: a name unless it opens a statement. -/
def settleToken (lineStart : Bool) (token : Token) (rest : List Token) : Token :=
  match token.kind with
  | .keyword word =>
    if isSoft word && !(lineStart && opensStatement word rest) then
      { token with kind := .name word.text }
    else token
  | _ => token

/-- Whether the token after this one is the first of a line. -/
def startsLine (token : Token) : Bool :=
  match token.kind with
  | .newline | .indent | .dedent => true
  | _ => false

/-- Settles all tokens, in front of those already settled, newest first. -/
def settleOnto (settled : List Token) (lineStart : Bool) : List Token → List Token
  | [] => settled
  | token :: rest =>
    settleOnto (settleToken lineStart token rest :: settled) (startsLine token) rest

end SoftKeyword

namespace TokenStream

/-- The stream of a whole program, where every word is what it is in its place. -/
def settleWords (stream : TokenStream) : TokenStream :=
  { stream with tokens := (SoftKeyword.settleOnto [] true stream.tokens).reverse }

/-- The stream of a lone expression, where the words in question are names. -/
def settleAsNames (stream : TokenStream) : TokenStream :=
  { stream with tokens := stream.tokens.map fun token => SoftKeyword.settleToken false token [] }

end TokenStream

end SourceOutline
