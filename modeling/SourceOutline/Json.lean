import SourceOutline.Decimal

/-!
# JSON values

The values that JSON text stands for. The members of an object are kept as they come, in their
order and with repeated keys; `Json.sortKeys` is the object in which each key stands once, with the
value it was given last, and all keys are in ascending order of their code points.

Whole numbers of 64 bits are exact, with a sign or without; all others are numbers in double
precision, and there is no infinite one.
-/

namespace SourceOutline

namespace Json

/-- A number. Zero in double precision has a sign too. -/
inductive Number where
  | whole (value : Int)
  | decimal (negative : Bool) (value : Binary64)
  deriving Repr, DecidableEq

end Json

/-- A JSON value. -/
inductive Json where
  | null
  | bool (value : Bool)
  | number (value : Json.Number)
  | string (value : String)
  | array (items : List Json)
  | object (members : List (String × Json))
  deriving Repr, Inhabited

namespace Json

/-- The largest whole number that is exact. -/
def maxWhole : Nat := UInt64.size - 1

/-- A natural number as a value. -/
def ofNat (n : Nat) : Json :=
  .number (.whole n)

/-- Texts as a value. -/
def ofStrings (texts : List String) : Json :=
  .array (texts.map .string)

/-- A value that may be missing; `null` where it is. -/
def ofOption {α : Type} (encode : α → Json) : Option α → Json
  | some value => encode value
  | none => .null

/-- An object with a member in front. -/
def cons (key : String) (value : Json) : Json → Json
  | object members => object ((key, value) :: members)
  | other => other

/-- Puts a member into members whose keys are ascending, in place of one with the same key. -/
def insertMember (key : String) (value : Json) : List (String × Json) → List (String × Json)
  | [] => [(key, value)]
  | (k, v) :: rest =>
    if key < k then (key, value) :: (k, v) :: rest
    else if key = k then (key, value) :: rest
    else (k, v) :: insertMember key value rest

mutual

/-- The value with the keys of all objects in it in ascending order, each once. -/
def sortKeys : Json → Json
  | null => null
  | bool value => bool value
  | number value => number value
  | string value => string value
  | array items => array (sortItems items)
  | object members => object (sortMembers [] members)

/-- The items, each with its keys sorted. -/
def sortItems : List Json → List Json
  | [] => []
  | item :: rest => sortKeys item :: sortItems rest

/-- Puts members into members that are sorted already. -/
def sortMembers (sorted : List (String × Json)) : List (String × Json) → List (String × Json)
  | [] => sorted
  | (key, value) :: rest => sortMembers (insertMember key (sortKeys value) sorted) rest

end

/-- The value that an object gives to a key last. -/
def member? (key : String) : Json → Option Json
  | object members => (members.reverse.find? (·.1 == key)).map (·.2)
  | _ => none

/-- The text, where the value is one. -/
def string? : Json → Option String
  | string value => some value
  | _ => none

/-- The truth value, where the value is one. -/
def bool? : Json → Option Bool
  | bool value => some value
  | _ => none

/-- The natural number, where the value is one. -/
def nat? : Json → Option Nat
  | number (.whole (.ofNat value)) => some value
  | _ => none

/-- The items as values of a type, where the value is an array and all of them are such values. -/
def listOf? {α : Type} (read? : Json → Option α) : Json → Option (List α)
  | array items => items.mapM read?
  | _ => none

/-- The value as one of a type that may be missing, where it is `null` or a value of that type. -/
def optionOf? {α : Type} (read? : Json → Option α) : Json → Option (Option α)
  | null => some none
  | value => (read? value).map some

end Json

end SourceOutline
