import SourceOutline.Target

/-!
# The language of targets

What may stand as a target is said in two ways. `IsTarget` is the least language closed under the
rules of a use: names, members and subscripts are targets in every use, a value that is stored or
deleted may be taken apart by tuples and lists of targets, and only a value that is stored by a
starred target. `Refused` says which single expressions may not stand in a use, whatever their parts
are, and what is said about each of them.

An expression is a target exactly if **none of its parts is refused** (`isTarget_iff`), where the
parts come in the order in which they are read, an outer one before those inside it
(`Expr.parts`). Each of the searches for what may not stand finds **the first part that is refused**
(`Expr.unassignable?_eq_find?`, `Expr.undeletable?_eq_find?`, `Expr.notPlace?_eq_find?`).
-/

namespace SourceOutline

/-! ### Targets -/

/-- The expressions that may stand as a target in a use. -/
inductive IsTarget : TargetUse → Expr → Prop
  | name {use : TargetUse} {span : Span} {id : String} : IsTarget use (.name span id)
  | member {use : TargetUse} {span : Span} : IsTarget use (.member span)
  | subscript {use : TargetUse} {span : Span} : IsTarget use (.subscript span)
  | starred {span : Span} {value : Expr} (h : IsTarget .store value) :
    IsTarget .store (.starred span value)
  | tuple {use : TargetUse} {span : Span} {elements : List Expr}
    (huse : use = .store ∨ use = .delete) (h : ∀ element ∈ elements, IsTarget use element) :
    IsTarget use (.tuple span elements)
  | list {use : TargetUse} {span : Span} {elements : List Expr}
    (huse : use = .store ∨ use = .delete) (h : ∀ element ∈ elements, IsTarget use element) :
    IsTarget use (.list span elements)

/-- The expressions that may not stand in a use, whatever is inside them, and what is said about
each. -/
inductive Refused : TargetUse → Expr → String → Prop
  | store {span : Span} {form : Expr.Form} :
    Refused .store (.other span form) ("cannot assign to " ++ form.text)
  | delete {span : Span} {form : Expr.Form} :
    Refused .delete (.other span form) ("cannot delete " ++ form.text)
  | deleteStarred {span : Span} {value : Expr} :
    Refused .delete (.starred span value) "cannot delete starred"
  | update {expr : Expr} (h : expr.isPlace = false) :
    Refused .update expr ("'" ++ expr.text ++ "' is an illegal expression for augmented assignment")
  | annotateTuple {span : Span} {elements : List Expr} :
    Refused .annotate (.tuple span elements) "only single target (not tuple) can be annotated"
  | annotateList {span : Span} {elements : List Expr} :
    Refused .annotate (.list span elements) "only single target (not list) can be annotated"
  | annotateStarred {span : Span} {value : Expr} :
    Refused .annotate (.starred span value) "illegal target for annotation"
  | annotate {span : Span} {form : Expr.Form} :
    Refused .annotate (.other span form) "illegal target for annotation"

namespace Expr

mutual

/-- The expression, and those that are unpacked along with it: an outer one before those inside it,
and these from left to right. -/
def parts : Expr → List Expr
  | name span id => [name span id]
  | member span => [member span]
  | subscript span => [subscript span]
  | other span form => [other span form]
  | starred span value => starred span value :: parts value
  | tuple span elements => tuple span elements :: partsOf elements
  | list span elements => list span elements :: partsOf elements

/-- The parts of expressions, one after the other. -/
def partsOf : List Expr → List Expr
  | [] => []
  | expr :: rest => parts expr ++ partsOf rest

end

/-- An expression is the first of its parts. -/
theorem mem_parts (expr : Expr) : expr ∈ expr.parts := by
  cases expr <;> exact List.mem_cons_self

theorem partsOf_eq_flatMap (exprs : List Expr) : partsOf exprs = exprs.flatMap parts := by
  induction exprs with
  | nil => rw [partsOf, List.flatMap_nil]
  | cons expr exprs ih => rw [partsOf, ih, List.flatMap_cons]

end Expr

/-! ### Which expressions are refused -/

namespace TargetUse

/-- Whether an expression may not stand in the use, whatever is inside it. -/
def refuses : TargetUse → Expr → Bool
  | store, .other .. => true
  | delete, .other .. | delete, .starred .. => true
  | update, expr | annotate, expr => !expr.isPlace
  | _, _ => false

end TargetUse

variable {use : TargetUse} {expr : Expr} {message : String}

/-- What is refused is told from the use and the expression alone, and its message is that of an
invalid target. -/
theorem refused_iff :
    Refused use expr message ↔
      use.refuses expr = true ∧ (InvalidTarget.mk expr use).message = message := by
  constructor
  · intro h
    cases h with
    | update h => exact ⟨by rw [TargetUse.refuses, h]; rfl, rfl⟩
    | _ => exact ⟨rfl, rfl⟩
  · rintro ⟨hrefuses, rfl⟩
    cases use with
    | store =>
      cases expr with
      | other span form => exact .store
      | _ => exact absurd hrefuses Bool.false_ne_true
    | delete =>
      cases expr with
      | other span form => exact .delete
      | starred span value => exact .deleteStarred
      | _ => exact absurd hrefuses Bool.false_ne_true
    | update => exact .update (Bool.not_eq_true' _ ▸ hrefuses)
    | annotate =>
      cases expr with
      | tuple span elements => exact .annotateTuple
      | list span elements => exact .annotateList
      | starred span value => exact .annotateStarred
      | other span form => exact .annotate
      | _ => exact absurd hrefuses Bool.false_ne_true

/-- Nothing is said about what is not refused. -/
theorem forall_not_refused_iff : (∀ message, ¬ Refused use expr message) ↔
    use.refuses expr = false := by
  rw [← Bool.not_eq_true]
  constructor
  · intro h hrefuses
    exact h _ (refused_iff.mpr ⟨hrefuses, rfl⟩)
  · intro h message hrefused
    exact h (refused_iff.mp hrefused).1

/-! ### Targets and their parts -/

variable {span : Span} {elements : List Expr}

private theorem isTarget_starred_iff {value : Expr} :
    IsTarget use (.starred span value) ↔
      use.refuses (.starred span value) = false ∧ IsTarget use value := by
  constructor
  · rintro (_ | _ | _ | h)
    exact ⟨rfl, h⟩
  · rintro ⟨hrefuses, h⟩
    cases use with
    | store => exact .starred h
    | _ => exact absurd hrefuses.symm Bool.false_ne_true

/-- Tuples are refused by the uses that do not take them apart. -/
private theorem refuses_tuple_eq_false_iff :
    use.refuses (.tuple span elements) = false ↔ use = .store ∨ use = .delete := by
  cases use <;> simp [TargetUse.refuses, Expr.isPlace]

private theorem refuses_list_eq_false_iff :
    use.refuses (.list span elements) = false ↔ use = .store ∨ use = .delete := by
  cases use <;> simp [TargetUse.refuses, Expr.isPlace]

private theorem isTarget_tuple_iff :
    IsTarget use (.tuple span elements) ↔
      use.refuses (.tuple span elements) = false ∧ ∀ element ∈ elements, IsTarget use element := by
  rw [refuses_tuple_eq_false_iff]
  constructor
  · rintro (_ | _ | _ | _ | ⟨huse, h⟩)
    exact ⟨huse, h⟩
  · rintro ⟨huse, h⟩
    exact .tuple huse h

private theorem isTarget_list_iff :
    IsTarget use (.list span elements) ↔
      use.refuses (.list span elements) = false ∧ ∀ element ∈ elements, IsTarget use element := by
  rw [refuses_list_eq_false_iff]
  constructor
  · rintro (_ | _ | _ | _ | _ | ⟨huse, h⟩)
    exact ⟨huse, h⟩
  · rintro ⟨huse, h⟩
    exact .list huse h

/-- Places may stand in every use. -/
theorem refuses_eq_false_of_isPlace (h : expr.isPlace = true) : use.refuses expr = false := by
  cases expr with
  | name | member | subscript => cases use <;> rfl
  | _ => exact absurd h Bool.false_ne_true

/-- Expressions of a form that is no target may stand in none. -/
theorem refuses_other {form : Expr.Form} : use.refuses (.other span form) = true := by
  cases use <;> rfl

mutual

/-- **An expression is a target if none of its parts is refused.** -/
theorem isTarget_iff (use : TargetUse) : ∀ expr : Expr,
    IsTarget use expr ↔ ∀ part ∈ expr.parts, use.refuses part = false
  | .name _ _ => by
    rw [Expr.parts, List.forall_mem_singleton, refuses_eq_false_of_isPlace rfl]
    exact iff_of_true .name rfl
  | .member _ => by
    rw [Expr.parts, List.forall_mem_singleton, refuses_eq_false_of_isPlace rfl]
    exact iff_of_true .member rfl
  | .subscript _ => by
    rw [Expr.parts, List.forall_mem_singleton, refuses_eq_false_of_isPlace rfl]
    exact iff_of_true .subscript rfl
  | .other _ _ => by
    rw [Expr.parts, List.forall_mem_singleton, refuses_other]
    exact iff_of_false nofun Bool.noConfusion
  | .starred _ value => by
    rw [Expr.parts, List.forall_mem_cons, isTarget_starred_iff, isTarget_iff use value]
  | .tuple _ elements => by
    rw [Expr.parts, List.forall_mem_cons, isTarget_tuple_iff, forall_isTarget_iff use elements]
  | .list _ elements => by
    rw [Expr.parts, List.forall_mem_cons, isTarget_list_iff, forall_isTarget_iff use elements]

theorem forall_isTarget_iff (use : TargetUse) : ∀ exprs : List Expr,
    (∀ expr ∈ exprs, IsTarget use expr) ↔
      ∀ part ∈ Expr.partsOf exprs, use.refuses part = false
  | [] => by
    rw [Expr.partsOf]
    exact iff_of_true nofun nofun
  | expr :: rest => by
    rw [Expr.partsOf, List.forall_mem_cons, List.forall_mem_append, isTarget_iff use expr,
      forall_isTarget_iff use rest]

end

/-! ### The searches -/

namespace Expr

mutual

/-- What cannot be assigned to is the first part that is refused. -/
theorem unassignable?_eq_find? : ∀ expr : Expr,
    expr.unassignable? = expr.parts.find? TargetUse.store.refuses
  | name _ _ => rfl
  | member _ => rfl
  | subscript _ => rfl
  | other _ _ => rfl
  | starred _ value => by
    rw [unassignable?, parts, unassignable?_eq_find? value]
    rfl
  | tuple _ elements => by
    rw [unassignable?, parts, firstUnassignable?_eq_find? elements]
    rfl
  | list _ elements => by
    rw [unassignable?, parts, firstUnassignable?_eq_find? elements]
    rfl

theorem firstUnassignable?_eq_find? : ∀ exprs : List Expr,
    firstUnassignable? exprs = (partsOf exprs).find? TargetUse.store.refuses
  | [] => rfl
  | expr :: rest => by
    rw [firstUnassignable?, partsOf, List.find?_append, unassignable?_eq_find? expr,
      firstUnassignable?_eq_find? rest]

end

mutual

/-- What cannot be deleted is the first part that is refused. A starred expression is so itself,
and nothing inside it is looked at. -/
theorem undeletable?_eq_find? : ∀ expr : Expr,
    expr.undeletable? = expr.parts.find? TargetUse.delete.refuses
  | name _ _ => rfl
  | member _ => rfl
  | subscript _ => rfl
  | other _ _ => rfl
  | starred _ _ => rfl
  | tuple _ elements => by
    rw [undeletable?, parts, firstUndeletable?_eq_find? elements]
    rfl
  | list _ elements => by
    rw [undeletable?, parts, firstUndeletable?_eq_find? elements]
    rfl

theorem firstUndeletable?_eq_find? : ∀ exprs : List Expr,
    firstUndeletable? exprs = (partsOf exprs).find? TargetUse.delete.refuses
  | [] => rfl
  | expr :: rest => by
    rw [firstUndeletable?, partsOf, List.find?_append, undeletable?_eq_find? expr,
      firstUndeletable?_eq_find? rest]

end

/-- Where nothing is taken apart the expression itself is the first part that is refused, unless it
is a place. -/
theorem notPlace?_eq_find? (huse : use = .update ∨ use = .annotate) (expr : Expr) :
    expr.notPlace? = expr.parts.find? use.refuses := by
  rcases huse with rfl | rfl <;> cases expr <;> rfl

end Expr

end SourceOutline
