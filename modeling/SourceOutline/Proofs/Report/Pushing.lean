import Mathlib.Algebra.BigOperators.Group.List.Basic
import Mathlib.Algebra.GroupWithZero.Nat
import SourceOutline.Proofs.Report.Filing

/-!
# Runs of pushes

Entries of every kind belong to one category, those of functions to two (`Entry.categories`). A push
takes the entries that belong where they are pushed, and no others: a report then has **one entry
more**, at the end of that category (`entries_push`), or it is the same report
(`push_of_not_fits`). So what a run of pushes comes to can be told from the pushes alone
(`entries_pushAll`).

**Main result** (`pushAll_accounts`): the answers, the entries and their numbers after any run of
pushes onto an empty report.
-/

namespace SourceOutline

/-! ### Where entries belong -/

/-- The categories that an entry belongs to. -/
def Entry.categories : Entry → List Category
  | .function _ => [.functions, .comments]
  | .classDef _ => [.classes]
  | .loop _ => [.loops]
  | .conditional _ => [.conditionals]
  | .assignment _ => [.assignments]
  | .importing _ => [.imports]

theorem Entry.fits_eq (category : Category) (entry : Entry) :
    entry.fits category = decide (category ∈ entry.categories) := by
  cases category <;> cases entry <;> rfl

theorem Category.mem_all (category : Category) : category ∈ all := by
  cases category <;> decide

/-- Among all categories each one is listed once. -/
theorem Category.sum_map_all_eq_one (category : Category) :
    (all.map fun other => if category = other then 1 else 0).sum = 1 := by
  cases category <;> rfl

namespace Report

variable {report : Report} {category : Category} {entry : Entry}

/-- Entries that are filed under a category, in their order. -/
def filed (category : Category) (hits : List (Category × Entry)) : List Entry :=
  (hits.filter (·.1 == category)).map (·.2)

theorem filed_cons (category : Category) (hit : Category × Entry) (rest : List (Category × Entry)) :
    filed category (hit :: rest)
      = (if hit.1 = category then [hit.2] else []) ++ filed category rest := by
  rw [filed, List.filter_cons]
  by_cases h : hit.1 = category
  · rw [if_pos (beq_iff_eq.mpr h), if_pos h, List.map_cons]
    rfl
  · rw [if_neg (mt beq_iff_eq.mp h), if_neg h]
    rfl

/-- Each entry is filed once. -/
theorem sum_length_filed (hits : List (Category × Entry)) :
    (Category.all.map fun category => (filed category hits).length).sum = hits.length := by
  induction hits with
  | nil => rfl
  | cons hit rest ih =>
    have hcons : ∀ category, (filed category (hit :: rest)).length
        = (if hit.1 = category then 1 else 0) + (filed category rest).length := by
      intro category
      rw [filed_cons, List.length_append]
      split <;> rfl
    simp only [hcons, List.sum_map_add, Category.sum_map_all_eq_one, ih, List.length_cons,
      Nat.add_comm]

/-- Nothing is filed under any category only if there is nothing. -/
theorem forall_filed_eq_nil_iff {hits : List (Category × Entry)} :
    (∀ category, filed category hits = []) ↔ hits = [] := by
  constructor
  · intro h
    have hlength := sum_length_filed hits
    simp only [h, List.length_nil] at hlength
    exact List.eq_nil_of_length_eq_zero hlength.symm
  · rintro rfl category
    rfl

theorem isEmpty_iff : report.isEmpty = true ↔ ∀ category, report.entries category = [] := by
  rw [isEmpty, List.all_eq_true]
  constructor
  · intro h category
    have hcount := h category category.mem_all
    exact List.eq_nil_of_length_eq_zero (beq_iff_eq.mp hcount)
  · intro h category _
    rw [count, h]
    rfl

/-! ### One push -/

theorem push_snd (report : Report) (category : Category) (entry : Entry) :
    (report.push category entry).2 = entry.fits category := by
  cases category <;> cases entry <;> rfl

/-- A push that is refused changes nothing. -/
theorem push_of_not_fits (report : Report) (h : entry.fits category = false) :
    report.push category entry = (report, false) := by
  cases category <;> cases entry <;> first | rfl | cases h

/-- **A push that is taken** puts the entry at the end of its category, and leaves the others as
they are. -/
theorem entries_push (report : Report) (h : entry.fits category = true) (other : Category) :
    (report.push category entry).1.entries other
      = report.entries other ++ if category = other then [entry] else [] := by
  have hempty : (({} : Report).push category entry).1.entries other
      = if category = other then [entry] else [] := by
    cases category <;> cases entry <;> first | (cases other <;> rfl) | cases h
  rw [push_fst, entries_append, hempty]

/-! ### Runs of pushes -/

/-- The pushes of entries that belong where they are pushed. -/
def fitting (pushes : List (Category × Entry)) : List (Category × Entry) :=
  pushes.filter fun push => push.2.fits push.1

/-- Each push of a run is answered by itself. -/
theorem pushAll_snd (report : Report) (pushes : List (Category × Entry)) :
    (report.pushAll pushes).2 = pushes.map fun push => push.2.fits push.1 := by
  induction pushes generalizing report with
  | nil => rfl
  | cons push rest ih =>
    have hcons : (report.pushAll (push :: rest)).2
        = (report.push push.1 push.2).2 :: ((report.push push.1 push.2).1.pushAll rest).2 := rfl
    rw [hcons, push_snd, ih, List.map_cons]

theorem pushAll_append_fst (report : Report) (s t : List (Category × Entry)) :
    (report.pushAll (s ++ t)).1 = ((report.pushAll s).1.pushAll t).1 := by
  induction s generalizing report with
  | nil => rfl
  | cons push rest ih => exact ih (report.push push.1 push.2).1

/-- **A run of pushes** adds the entries that belong where they are pushed, in their order. -/
theorem entries_pushAll (report : Report) (pushes : List (Category × Entry)) (category : Category) :
    (report.pushAll pushes).1.entries category
      = report.entries category ++ filed category (fitting pushes) := by
  induction pushes generalizing report with
  | nil => exact (List.append_nil _).symm
  | cons push rest ih =>
    have hcons : (report.pushAll (push :: rest)).1
        = ((report.push push.1 push.2).1.pushAll rest).1 := rfl
    rw [hcons, ih, fitting, fitting, List.filter_cons]
    cases hfits : push.2.fits push.1 with
    | false => rw [push_of_not_fits report hfits, if_neg Bool.false_ne_true]
    | true => rw [entries_push report hfits, if_pos rfl, filed_cons, List.append_assoc]

/-- The pushes that were answered with `true` are those of entries that belong there. -/
private theorem filter_zip_answers (pushes : List (Category × Entry)) :
    ((pushes.zip (({} : Report).pushAll pushes).2).filter (·.2)).map (·.1) = fitting pushes := by
  rw [pushAll_snd, ← List.map_prod_left_eq_zip, List.filter_map, List.map_map, fitting]
  exact List.map_id _

/-- **What a run of pushes comes to**, onto an empty report. Each push is answered with whether its
entry belongs where it was pushed, and one that is refused changes nothing. In the end a category
has the entries that were taken under it, in the order of the pushes; the numbers of entries add up
to that of the pushes that were taken, and the report is empty only if none was. -/
theorem pushAll_accounts (pushes : List (Category × Entry)) :
    let report := (({} : Report).pushAll pushes).1
    let answers := (({} : Report).pushAll pushes).2
    let taken := ((pushes.zip answers).filter (·.2)).map (·.1)
    answers = pushes.map (fun push => decide (push.1 ∈ push.2.categories)) ∧
      (∀ n : Nat, answers[n]? = some false →
        (({} : Report).pushAll (pushes.take (n + 1))).1
          = (({} : Report).pushAll (pushes.take n)).1) ∧
      (∀ category, report.entries category = filed category taken) ∧
      (Category.all.map report.count).sum = taken.length ∧
      (report.isEmpty = true ↔ taken = []) := by
  intro report answers taken
  have hanswers : answers = pushes.map fun push => push.2.fits push.1 := pushAll_snd {} pushes
  have htaken : taken = fitting pushes := filter_zip_answers pushes
  have hentries : ∀ category, report.entries category = filed category taken := by
    intro category
    rw [entries_pushAll, htaken]
    cases category <;> rfl
  refine ⟨?_, ?_, hentries, ?_, ?_⟩
  · rw [hanswers]
    exact List.map_congr_left fun push _ => Entry.fits_eq push.1 push.2
  · intro n hn
    rw [hanswers, List.getElem?_map, Option.map_eq_some_iff] at hn
    obtain ⟨push, hpush, hfits⟩ := hn
    have hlast : ∀ report : Report, (report.pushAll [push]).1 = report := by
      intro report
      exact congrArg Prod.fst (push_of_not_fits report hfits)
    rw [List.take_add_one, hpush, Option.toList_some, pushAll_append_fst, hlast]
  · have hcount : ∀ category, report.count category = (filed category taken).length :=
      fun category => congrArg List.length (hentries category)
    rw [funext hcount, sum_length_filed]
  · rw [isEmpty_iff, ← forall_filed_eq_nil_iff]
    exact forall_congr' fun category => by rw [hentries]

/-- Of four pushes the second is refused, as a loop is no comment. -/
theorem pushAll_accounts_refused :
    let function : Entry := .function ⟨"f", 1, []⟩
    let loop : Entry := .loop ⟨.while_, 3⟩
    let pushes :=
      [(.functions, function), (.comments, loop), (.comments, function), (.loops, loop)]
    let report := (({} : Report).pushAll pushes).1
    (({} : Report).pushAll pushes).2 = [true, false, true, true] ∧
      (({} : Report).pushAll (pushes.take 2)).1 = (({} : Report).pushAll (pushes.take 1)).1 ∧
      report.entries .comments = [function] ∧ (Category.all.map report.count).sum = 3 ∧
      ¬report.isEmpty = true := by
  intro function loop pushes report
  obtain ⟨hanswers, hrefused, hentries, hcounts, hempty⟩ := pushAll_accounts pushes
  refine ⟨hanswers, hrefused 1 rfl, hentries .comments, hcounts, ?_⟩
  rw [hempty]
  exact List.cons_ne_nil _ _

end Report

end SourceOutline
