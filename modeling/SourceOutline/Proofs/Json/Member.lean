import SourceOutline.Proofs.Json.Spelling

/-!
# Members and the order they come in

What an object gives to a key is the list of the values that it has there (`Json.given`); a value
`Json.Agrees` with another if both give the same to every key, in all objects in them. So two
objects that agree differ in the order of their members only.

Sorting the members of an object puts the keys in ascending order and keeps the last value of each
(`given_sortMembers`). **Main results**: a regular value with its keys sorted is regular
(`Regular.sortKeys`) and agrees with the value as it was (`agrees_sortKeys`).
-/

namespace SourceOutline.Json

variable {key : String} {value : Json} {members sorted : List (String × Json)}

/-! ### What an object gives to a key -/

/-- The values that members give to a key. -/
def given (key : String) (members : List (String × Json)) : List Json :=
  (members.filter (·.1 == key)).map (·.2)

@[simp]
theorem given_nil : given key [] = [] := rfl

@[simp]
theorem given_cons_self : given key ((key, value) :: members) = value :: given key members := by
  rw [given, List.filter_cons_of_pos (by simp), List.map_cons, given]

@[simp]
theorem given_cons_of_ne {other : String} (h : other ≠ key) :
    given key ((other, value) :: members) = given key members := by
  rw [given, List.filter_cons_of_neg (by simpa using h), given]

theorem given_cons (other : String) :
    given key ((other, value) :: members) =
      if other = key then value :: given key members else given key members := by
  split
  · next h => rw [h, given_cons_self]
  · next h => exact given_cons_of_ne h

/-- Nothing is given to what is no key. -/
theorem given_eq_nil (h : key ∉ members.map (·.1)) : given key members = [] := by
  rw [given, List.map_eq_nil_iff, List.filter_eq_nil_iff]
  intro member hmember hkey
  exact h (List.mem_map.mpr ⟨member, hmember, by simpa using hkey⟩)

theorem mem_given : value ∈ given key members ↔ (key, value) ∈ members := by
  simp only [given, List.mem_map, List.mem_filter, beq_iff_eq]
  constructor
  · rintro ⟨⟨_, _⟩, ⟨hmember, rfl⟩, rfl⟩
    exact hmember
  · intro h
    exact ⟨(key, value), ⟨h, rfl⟩, rfl⟩

/-- Where keys are distinct at most one value is given to each. -/
theorem given_of_nodup (h : (members.map (·.1)).Nodup) (key : String) :
    given key members = [] ∨ ∃ value, given key members = [value] := by
  induction members with
  | nil => exact .inl rfl
  | cons member members ih =>
    obtain ⟨other, value⟩ := member
    rw [List.map_cons, List.nodup_cons] at h
    by_cases hkey : other = key
    · subst hkey
      exact .inr ⟨value, by rw [given_cons_self, given_eq_nil h.1]⟩
    · rw [given_cons_of_ne hkey]
      exact ih h.2

/-- The value of a key is the last that it is given. -/
theorem member?_object (key : String) (members : List (String × Json)) :
    (object members).member? key = (given key members).getLast? := by
  rw [member?, given, List.getLast?_map, List.getLast?_eq_head?_reverse, ← List.filter_reverse,
    List.head?_filter]

/-! ### Values that differ in the order of members -/

mutual

/-- Values that are equal but for the order of the members of the objects in them. -/
inductive Agrees : Json → Json → Prop
  | null : Agrees .null .null
  | bool (value : Bool) : Agrees (.bool value) (.bool value)
  | number (value : Number) : Agrees (.number value) (.number value)
  | string (value : String) : Agrees (.string value) (.string value)
  | array {items items' : List Json} (h : AgreesItems items items') :
    Agrees (.array items) (.array items')
  | object {members members' : List (String × Json)}
    (h : ∀ key, AgreesItems (given key members) (given key members')) :
    Agrees (.object members) (.object members')

/-- Items that agree one by one. -/
inductive AgreesItems : List Json → List Json → Prop
  | nil : AgreesItems [] []
  | cons {item item' : Json} {items items' : List Json} (h : Agrees item item')
    (hitems : AgreesItems items items') : AgreesItems (item :: items) (item' :: items')

end

/-- Items agree with what they become one by one. -/
theorem agreesItems_map {f : Json → Json} {items : List Json}
    (h : ∀ item ∈ items, Agrees item (f item)) : AgreesItems items (items.map f) := by
  induction items with
  | nil => exact .nil
  | cons item items ih =>
    exact .cons (h item List.mem_cons_self)
      (ih fun other hother => h other (List.mem_cons_of_mem _ hother))

/-- Items that agree with others have one for each of these. -/
theorem AgreesItems.exists_of_mem : ∀ {items others : List Json}, AgreesItems items others →
    ∀ other ∈ others, ∃ item ∈ items, Agrees item other
  | _, _, .nil, _, hother => absurd hother List.not_mem_nil
  | _, _, .cons h hitems, other, hother => by
    rcases List.mem_cons.mp hother with rfl | hother
    · exact ⟨_, List.mem_cons_self, h⟩
    · obtain ⟨item, hitem, hagrees⟩ := hitems.exists_of_mem other hother
      exact ⟨item, List.mem_cons_of_mem _ hitem, hagrees⟩

/-! ### Sorted members -/

/-- Members whose keys ascend. -/
def Ascending (members : List (String × Json)) : Prop :=
  members.Pairwise fun member other => member.1 < other.1

/-- A key in front of ascending ones is none of them. -/
theorem notMem_of_ascending (h : ∀ member ∈ members, key < member.1) :
    key ∉ members.map (·.1) := by
  intro hkey
  obtain ⟨member, hmember, rfl⟩ := List.mem_map.mp hkey
  exact String.lt_irrefl _ (h member hmember)

/-- A key in front of the first of ascending ones is in front of all of them. -/
private theorem forall_lt_of_lt_first {k : String} {v : Json} {rest : List (String × Json)}
    (hlt : key < k) (hfirst : ∀ member ∈ rest, k < member.1) :
    ∀ member ∈ (k, v) :: rest, key < member.1 :=
  List.forall_mem_cons.mpr
    ⟨hlt, fun member hmember => String.lt_trans hlt (hfirst member hmember)⟩

theorem Ascending.nodup (h : Ascending members) : (members.map (·.1)).Nodup := by
  induction members with
  | nil => exact .nil
  | cons member members ih =>
    obtain ⟨hfirst, hrest⟩ := List.pairwise_cons.mp h
    rw [List.map_cons, List.nodup_cons]
    exact ⟨notMem_of_ascending hfirst, ih hrest⟩

theorem mem_insertMember {member : String × Json} (h : member ∈ insertMember key value sorted) :
    member = (key, value) ∨ member ∈ sorted := by
  induction sorted with
  | nil => exact .inl (List.mem_singleton.mp h)
  | cons first rest ih =>
    obtain ⟨k, v⟩ := first
    rw [insertMember] at h
    split at h
    · exact List.mem_cons.mp h
    split at h
    · rcases List.mem_cons.mp h with rfl | h
      · exact .inl rfl
      · exact .inr (List.mem_cons_of_mem _ h)
    · rcases List.mem_cons.mp h with rfl | h
      · exact .inr List.mem_cons_self
      · exact (ih h).imp_right (List.mem_cons_of_mem _)

theorem ascending_insertMember (h : Ascending sorted) :
    Ascending (insertMember key value sorted) := by
  induction sorted with
  | nil => exact List.pairwise_singleton _ _
  | cons first rest ih =>
    obtain ⟨k, v⟩ := first
    obtain ⟨hfirst, hrest⟩ := List.pairwise_cons.mp h
    rw [insertMember]
    split
    · next hlt => exact List.pairwise_cons.mpr ⟨forall_lt_of_lt_first hlt hfirst, h⟩
    split
    · next heq =>
      subst heq
      exact List.pairwise_cons.mpr ⟨hfirst, hrest⟩
    · next hlt hne =>
      refine List.pairwise_cons.mpr ⟨fun member hmember => ?_, ih hrest⟩
      rcases mem_insertMember hmember with rfl | hmember
      · exact Std.lt_of_le_of_ne (String.not_lt.mp hlt) (Ne.symm hne)
      · exact hfirst member hmember

/-- A member that is put in gives its value to its key, and all other keys keep theirs. -/
theorem given_insertMember (h : Ascending sorted) (other : String) :
    given other (insertMember key value sorted) =
      if key = other then [value] else given other sorted := by
  induction sorted with
  | nil => rw [insertMember, given_cons, given_nil]
  | cons first rest ih =>
    obtain ⟨k, v⟩ := first
    obtain ⟨hfirst, hrest⟩ := List.pairwise_cons.mp h
    rw [insertMember]
    split
    · next hlt =>
      -- The key was not there yet, so no other value is given to it.
      have hnot : key ∉ ((k, v) :: rest).map (·.1) :=
        notMem_of_ascending (forall_lt_of_lt_first hlt hfirst)
      rw [given_cons key]
      split
      · next heq => rw [← heq, given_eq_nil hnot]
      · rfl
    split
    · next heq =>
      subst heq
      rw [given_cons key, given_cons key]
      split
      · next heq => rw [← heq, given_eq_nil (notMem_of_ascending hfirst)]
      · rfl
    · next hlt hne =>
      rw [given_cons k, given_cons k, ih hrest]
      by_cases hkey : key = other
      · rw [if_neg fun h => hne (hkey.trans h.symm), if_pos hkey, if_pos hkey]
      · rw [if_neg hkey, if_neg hkey]

/-- Each of the members put in gives its value, with the keys in it sorted, to its key, unless a
later one does. -/
theorem given_sortMembers (h : Ascending sorted) (members : List (String × Json)) (key : String) :
    given key (sortMembers sorted members) =
      match (given key members).getLast? with
      | some value => [value.sortKeys]
      | none => given key sorted := by
  induction members generalizing sorted with
  | nil => rw [sortMembers, given_nil, List.getLast?_nil]
  | cons member members ih =>
    obtain ⟨other, value⟩ := member
    rw [sortMembers, ih (ascending_insertMember h), given_insertMember h, given_cons]
    -- The value put in first stands only where none of those behind it has the key.
    by_cases hkey : other = key
    · rw [if_pos hkey, if_pos hkey, List.getLast?_cons]
      cases (given key members).getLast? <;> rfl
    · rw [if_neg hkey, if_neg hkey]

theorem ascending_sortMembers (h : Ascending sorted) (members : List (String × Json)) :
    Ascending (sortMembers sorted members) := by
  induction members generalizing sorted with
  | nil =>
    rw [sortMembers]
    exact h
  | cons member members ih =>
    rw [sortMembers]
    exact ih (ascending_insertMember h)

theorem mem_sortMembers {member : String × Json} (h : member ∈ sortMembers sorted members) :
    member ∈ sorted ∨ ∃ value, (member.1, value) ∈ members ∧ member.2 = value.sortKeys := by
  induction members generalizing sorted with
  | nil =>
    rw [sortMembers] at h
    exact .inl h
  | cons first rest ih =>
    obtain ⟨key, value⟩ := first
    rw [sortMembers] at h
    rcases ih h with h | ⟨found, hfound, hvalue⟩
    · rcases mem_insertMember h with rfl | h
      · exact .inr ⟨value, List.mem_cons_self, rfl⟩
      · exact .inl h
    · exact .inr ⟨found, List.mem_cons_of_mem _ hfound, hvalue⟩

theorem sortItems_eq_map (items : List Json) : sortItems items = items.map sortKeys := by
  induction items with
  | nil => rw [sortItems, List.map_nil]
  | cons item items ih => rw [sortItems, ih, List.map_cons]

/-- **A regular value with its keys sorted is regular.** -/
theorem Regular.sortKeys {levels : Nat} {json : Json} (h : Regular levels json) :
    Regular levels json.sortKeys := by
  induction h with
  | null => exact .null
  | bool value => exact .bool value
  | natural h => exact .natural h
  | string value => exact .string value
  | @array levels items _ ih =>
    rw [Json.sortKeys, sortItems_eq_map]
    refine .array fun item hitem => ?_
    obtain ⟨item, hmem, rfl⟩ := List.mem_map.mp hitem
    exact ih item hmem
  | @object levels members _ _ ih =>
    rw [Json.sortKeys]
    refine .object (ascending_sortMembers List.Pairwise.nil members).nodup fun member hmember => ?_
    rcases mem_sortMembers hmember with hnil | ⟨value, hvalue, heq⟩
    · exact absurd hnil List.not_mem_nil
    · rw [heq]
      exact ih _ hvalue

/-- **A regular value agrees with itself with its keys sorted.** -/
theorem agrees_sortKeys {levels : Nat} {json : Json} (h : Regular levels json) :
    Agrees json json.sortKeys := by
  induction h with
  | null => exact .null
  | bool value => exact .bool value
  | natural h => exact .number _
  | string value => exact .string value
  | @array levels items _ ih =>
    rw [sortKeys, sortItems_eq_map]
    exact .array (agreesItems_map ih)
  | @object levels members hkeys _ ih =>
    rw [sortKeys]
    refine .object fun key => ?_
    rw [given_sortMembers List.Pairwise.nil]
    -- No key is given twice, so that the last value is the only one.
    rcases given_of_nodup hkeys key with hnil | ⟨value, hvalue⟩
    · rw [hnil]
      exact .nil
    · have hmember : (key, value) ∈ members := by
        rw [← mem_given, hvalue]
        exact List.mem_singleton_self value
      rw [hvalue]
      exact .cons (ih _ hmember) .nil

end SourceOutline.Json
