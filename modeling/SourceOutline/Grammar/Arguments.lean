import SourceOutline.Fault

/-!
# Arguments and parameters

What a call or a class passes, what a function or a `lambda` takes, and the rules on their order
and their names that the grammar itself does not state.
-/

namespace SourceOutline.Grammar

/-- One argument, with the offset at which a fault of it is reported. -/
inductive Argument where
  | positional (start : Nat)
  /-- The members of a sequence, passed as positional arguments. -/
  | starred (start : Nat)
  | keyword (start : Nat) (name : String)
  /-- The entries of a mapping, passed as keyword arguments. -/
  | doubleStarred
  deriving Repr, DecidableEq

namespace Argument

/-- Checks arguments from left to right. `names` are those of the keyword arguments so far, and
the flags say whether there was a keyword argument of any kind, and a doubly starred one. -/
def checkFrom (names : List String) (anyKeyword anyDouble : Bool) :
    List Argument → Except Fault Unit
  | [] => pure ()
  | keyword start name :: rest =>
    if names.contains name then throw ⟨.repeatedKeyword name, start⟩
    else checkFrom (name :: names) true anyDouble rest
  | doubleStarred :: rest => checkFrom names true true rest
  | positional start :: rest =>
    if anyKeyword then throw ⟨.positionalAfterKeyword, start⟩
    else checkFrom names anyKeyword anyDouble rest
  | starred start :: rest =>
    if anyDouble then throw ⟨.starAfterDoubleStar, start⟩
    else checkFrom names anyKeyword anyDouble rest

/-- Checks the arguments of a call or of a class. -/
def check (arguments : List Argument) : Except Fault Unit :=
  checkFrom [] false false arguments

end Argument

/-- A parameter: its name, where that stands, and whether there is a default for it. -/
structure Parameter where
  name : String
  start : Nat
  hasDefault : Bool := false
  deriving Repr, DecidableEq

/-- The parameters of a function. -/
structure Parameters where
  /-- Those in front of a slash. -/
  positionalOnly : List Parameter := []
  /-- Those that can be passed in either way. -/
  ordinary : List Parameter := []
  /-- Where the star stands, if there is one. -/
  star : Option Nat := none
  /-- The parameter of the star, if it has one. -/
  starParameter : Option Parameter := none
  /-- Those after the star. -/
  keywordOnly : List Parameter := []
  /-- Whether there is a double star. -/
  doubleStar : Bool := false
  /-- The parameter of the double star, if it has one. -/
  doubleStarParameter : Option Parameter := none
  deriving Repr

namespace Parameters

/-- All parameters, in the order in which their names are compared. -/
def all (params : Parameters) : List Parameter :=
  params.positionalOnly ++ params.ordinary ++ params.keywordOnly ++
    params.starParameter.toList ++ params.doubleStarParameter.toList

/-- A bare star must have a parameter after it. -/
def checkStar (params : Parameters) : Except Fault Unit :=
  match params.star with
  | some start =>
    if params.starParameter.isNone && params.keywordOnly.isEmpty && !params.doubleStar then
      throw ⟨.bareStar, start⟩
    else pure ()
  | none => pure ()

/-- After a parameter with a default, each must have one. -/
def checkDefaults (seen : Bool) : List Parameter → Except Fault Unit
  | [] => pure ()
  | param :: rest =>
    if seen && !param.hasDefault then throw ⟨.defaultOrder, param.start⟩
    else checkDefaults (seen || param.hasDefault) rest

/-- The rules on the order of parameters. -/
def checkOrder (params : Parameters) : Except Fault Unit := do
  params.checkStar
  checkDefaults false (params.positionalOnly ++ params.ordinary)

/-- No two of the names may be equal; `names` are those in front. -/
def checkNamesFrom (names : List String) : List Parameter → Except Fault Unit
  | [] => pure ()
  | param :: rest =>
    if names.contains param.name then throw ⟨.repeatedParameter param.name, param.start⟩
    else checkNamesFrom (param.name :: names) rest

/-- No two parameters may have the same name. -/
def checkNames (params : Parameters) : Except Fault Unit :=
  checkNamesFrom [] params.all

end Parameters

end SourceOutline.Grammar
