import SourceOutline.Grammar.Expression

/-!
# What is read, without its places

The grammar keeps of what it reads where it stands, but decides nothing by that. Here is what is
left of expressions, arguments and parameters without their places (`Expr.bare` and the like); the
checks on arguments and parameters find a fault in it exactly if they find one in the whole.
-/

namespace SourceOutline

namespace Expr

mutual

/-- The expression without the places in it. -/
def bare : Expr → Expr
  | name _ id => name default id
  | member _ => member default
  | subscript _ => subscript default
  | starred _ value => starred default (bare value)
  | tuple _ elements => tuple default (bareAll elements)
  | list _ elements => list default (bareAll elements)
  | other _ form => other default form

/-- The expressions without the places in them. -/
def bareAll : List Expr → List Expr
  | [] => []
  | expr :: rest => bare expr :: bareAll rest

end

theorem bareAll_eq_map (exprs : List Expr) : bareAll exprs = exprs.map bare := by
  induction exprs with
  | nil => rw [bareAll, List.map_nil]
  | cons expr exprs ih => rw [bareAll, ih, List.map_cons]

end Expr

namespace Grammar

theorem throw_ne_ok {α : Type} {fault : Fault} {a : α} : (throw fault : Except Fault α) ≠ .ok a :=
  fun h => by cases h

/-- What was read, without its places. -/
def Placed.bare (placed : Placed) : Expr :=
  placed.expr.bare

/-- An item, without its places. -/
def Placed.bareItem (item : Placed × Bool) : Expr × Bool :=
  (item.1.bare, item.2)

/-- What stands in brackets, without its places. -/
inductive BareEnclosed where
  | nothing
  | yielded (value : Expr)
  | doubleStarred
  | generated
  | values (items : List (Expr × Bool)) (trailing : Bool)

@[inherit_doc BareEnclosed]
def Enclosed.bare : Enclosed → BareEnclosed
  | .nothing => .nothing
  | .yielded value => .yielded value.bare
  | .doubleStarred _ => .doubleStarred
  | .generated => .generated
  | .values items trailing => .values (items.map Placed.bareItem) trailing

/-- An argument, without its place. -/
def Argument.bare : Argument → Argument
  | .positional _ => .positional 0
  | .starred _ => .starred 0
  | .keyword _ name => .keyword 0 name
  | .doubleStarred => .doubleStarred

theorem Argument.checkFrom_bare (names : List String) (anyKeyword anyDouble : Bool)
    (items : List Argument) :
    checkFrom names anyKeyword anyDouble (items.map bare) = .ok () ↔
      checkFrom names anyKeyword anyDouble items = .ok () := by
  induction items generalizing names anyKeyword anyDouble with
  | nil => rfl
  | cons item items ih =>
    cases item with
    | doubleStarred => exact ih _ _ _
    | _ =>
      simp only [List.map_cons, bare, checkFrom]
      split
      · exact iff_of_false throw_ne_ok throw_ne_ok
      · exact ih _ _ _

/-- A parameter, without its place. -/
def Parameter.bare (param : Parameter) : Parameter :=
  { param with start := 0 }

/-- Parameters, without their places. -/
def Parameters.bare (params : Parameters) : Parameters where
  positionalOnly := params.positionalOnly.map Parameter.bare
  ordinary := params.ordinary.map Parameter.bare
  star := params.star.map fun _ => 0
  starParameter := params.starParameter.map Parameter.bare
  keywordOnly := params.keywordOnly.map Parameter.bare
  doubleStar := params.doubleStar
  doubleStarParameter := params.doubleStarParameter.map Parameter.bare

theorem Parameters.checkDefaults_bare (seen : Bool) (items : List Parameter) :
    checkDefaults seen (items.map Parameter.bare) = .ok () ↔ checkDefaults seen items = .ok () := by
  induction items generalizing seen with
  | nil => rfl
  | cons param items ih =>
    simp only [List.map_cons, checkDefaults, Parameter.bare]
    split
    · exact iff_of_false throw_ne_ok throw_ne_ok
    · exact ih _

theorem Parameters.checkNamesFrom_bare (names : List String) (items : List Parameter) :
    checkNamesFrom names (items.map Parameter.bare) = .ok () ↔
      checkNamesFrom names items = .ok () := by
  induction items generalizing names with
  | nil => rfl
  | cons param items ih =>
    simp only [List.map_cons, checkNamesFrom, Parameter.bare]
    split
    · exact iff_of_false throw_ne_ok throw_ne_ok
    · exact ih _

theorem Parameters.checkStar_bare (params : Parameters) :
    params.bare.checkStar = .ok () ↔ params.checkStar = .ok () := by
  rw [checkStar, checkStar, bare]
  cases params.star with
  | none => rfl
  | some start =>
    simp only [Option.map_some, Option.isNone_map, List.isEmpty_map]
    split
    · exact iff_of_false throw_ne_ok throw_ne_ok
    · rfl

theorem Parameters.checkOrder_eq_ok_iff (params : Parameters) :
    params.checkOrder = .ok () ↔ params.checkStar = .ok () ∧
      checkDefaults false (params.positionalOnly ++ params.ordinary) = .ok () := by
  rw [checkOrder]
  cases params.checkStar with
  | error fault => exact iff_of_false throw_ne_ok fun h => throw_ne_ok h.1
  | ok _ => exact (and_iff_right rfl).symm

theorem Parameters.checkOrder_bare (params : Parameters) :
    params.bare.checkOrder = .ok () ↔ params.checkOrder = .ok () := by
  rw [checkOrder_eq_ok_iff, checkOrder_eq_ok_iff, checkStar_bare, bare, ← List.map_append,
    checkDefaults_bare]

theorem Parameters.checkNames_bare (params : Parameters) :
    params.bare.checkNames = .ok () ↔ params.checkNames = .ok () := by
  have hall : params.bare.all = params.all.map Parameter.bare := by
    simp only [all, bare, List.map_append, Option.toList_map]
  rw [checkNames, checkNames, hall]
  exact checkNamesFrom_bare [] params.all

end Grammar

end SourceOutline
