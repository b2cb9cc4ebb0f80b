/-!
# Expressions

An expression as far as anything is asked about it: where it stands, and of what shape it is when
it is assigned to. Names, attributes, subscripts and the unpacking shapes are kept apart, the
latter with their parts; every other expression is known by its `Expr.Form` only.
-/

namespace SourceOutline

/-- A stretch of a text, by the byte offsets of its start and its end. -/
structure Span where
  start : Nat
  stop : Nat
  deriving Repr, DecidableEq, Inhabited

namespace Expr

/-- The forms of expressions that are no possible targets. -/
inductive Form where
  | call | noneValue | trueValue | falseValue | ellipsis | literal | formatString
  | yieldValue | awaited | comparison | lambda | conditional | named
  | dict | set | listComprehension | setComprehension | dictComprehension | generator | slice
  /-- Arithmetic and logic. -/
  | operation
  deriving Repr, DecidableEq

/-- What messages call each form. -/
def Form.text : Form → String
  | call => "function call"
  | noneValue => "None"
  | trueValue => "True"
  | falseValue => "False"
  | ellipsis => "ellipsis"
  | literal => "literal"
  | formatString => "f-string expression"
  | yieldValue => "yield expression"
  | awaited => "await expression"
  | comparison => "comparison"
  | lambda => "lambda"
  | conditional => "conditional expression"
  | named => "named expression"
  | dict => "dict literal"
  | set => "set display"
  | listComprehension => "list comprehension"
  | setComprehension => "set comprehension"
  | dictComprehension => "dict comprehension"
  | generator => "generator expression"
  | slice => "slice"
  | operation => "expression"

end Expr

/-- An expression, reduced to what an assignment needs to know about it. -/
inductive Expr where
  | name (span : Span) (id : String)
  /-- A member of a value, behind a point. -/
  | member (span : Span)
  | subscript (span : Span)
  | starred (span : Span) (value : Expr)
  | tuple (span : Span) (elements : List Expr)
  | list (span : Span) (elements : List Expr)
  | other (span : Span) (form : Expr.Form)
  deriving Repr, Inhabited

namespace Expr

/-- Where the expression stands. -/
def span : Expr → Span
  | name span _ | member span | subscript span | starred span _ | tuple span _ | list span _
  | other span _ => span

/-- What messages call the expression. -/
def text : Expr → String
  | name .. => "name"
  | member _ => "attribute"
  | subscript _ => "subscript"
  | starred .. => "starred"
  | tuple .. => "tuple"
  | list .. => "list"
  | other _ form => form.text

end Expr

end SourceOutline
