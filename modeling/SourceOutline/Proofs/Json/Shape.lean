import SourceOutline.Json.Coding
import SourceOutline.Proofs.Json.Member
import SourceOutline.Proofs.Json.Reading

/-!
# Reading values of a shape

A reader `Reads` one value as another if it answers with the other for every tree that denotes the
one, with enough levels left. For each way to build a reader there is a lemma that says what it
reads.

**Main result for records** (`reads_object`): an object is read as a record once its members have
settled the places of the fields. It rests on `readMembers_settles`, which follows the places
through the members: in which order these come does not matter, and members of no field are passed
over.

A type with several shapes is read as any value first, which is read as it is unless it is nested
too deep (`reads_any`). The shape that is taken is the first that fits (`Reader.reads_oneOf`); a
record of which a required field is missing does not (`Reader.object_ne_ok`).
-/

namespace SourceOutline.Json

/-! ### What a reader answers -/

/-- The reader makes a plain form of a value, where more than the given number of levels are
left. -/
def Reader.Reads (reader : Reader) (levels : Nat) (json plain : Json) : Prop :=
  ∀ (depth : Nat) (tree : Tree), levels < depth → Denotes tree json → reader depth tree = .ok plain

variable {levels depth : Nat}

namespace Reader

theorem reads_string (value : String) : string.Reads levels (.string value) (.string value) := by
  rintro depth _ _ ⟨⟩
  rfl

theorem reads_boolean (value : Bool) : boolean.Reads levels (.bool value) (.bool value) := by
  rintro depth _ _ ⟨⟩
  rfl

theorem reads_natural {n : Nat} (h : n ≤ maxWhole) :
    natural.Reads levels (.ofNat n) (.ofNat n) := by
  rintro depth _ _ ⟨⟩
  have hrange : (0 : Int) ≤ n ∧ (n : Int) ≤ maxWhole := by omega
  simp only [natural, hrange.1, hrange.2, decide_true, Bool.and_self, if_true]
  rfl

theorem reads_word {wanted : String} {words : List String} {value : String}
    (h : words.contains value = true) :
    (word wanted words).Reads levels (.string value) (.string value) := by
  rintro depth _ _ ⟨⟩
  simp only [word, checkWord, h, if_true]
  rfl

theorem openLevel_eq_ok (h : 1 < depth) (peek : Nat) : openLevel depth peek = .ok (depth - 1) := by
  rw [openLevel, if_neg (by omega)]
  rfl

end Reader

/-! ### Members that are passed over -/

mutual

/-- A tree that denotes a value is complete. -/
theorem cut?_eq_none : ∀ {tree : Tree} {json : Json}, Denotes tree json → tree.cut? = none
  | _, _, .null => rfl
  | _, _, .bool _ => rfl
  | _, _, .number _ => rfl
  | _, _, .string _ => rfl
  | _, _, .array h => by
    rw [Tree.cut?, itemsCut?_eq_none h]
    rfl
  | _, _, .object h => by
    rw [Tree.cut?, membersCut?_eq_none h]
    rfl

theorem itemsCut?_eq_none : ∀ {trees : List Tree} {items : List Json}, DenotesItems trees items →
    Tree.itemsCut? trees = none
  | _, _, .nil => rfl
  | _, _, .cons h hitems => by
    rw [Tree.itemsCut?, cut?_eq_none h, itemsCut?_eq_none hitems]
    rfl

theorem membersCut?_eq_none : ∀ {trees : List Member} {members : List (String × Json)},
    DenotesMembers trees members → Tree.membersCut? trees = none
  | _, _, .nil => rfl
  | _, _, .cons h hmembers => by
    rw [Tree.membersCut?, cut?_eq_none h, membersCut?_eq_none hmembers]
    rfl

end

/-! ### The places of the fields of a record -/

variable {fields : List Field}

/-- What members make of the place of a field: it stays as it is where none has the key of the
field, and takes the plain form of the value where one has. -/
inductive Becomes (levels : Nat) (members : List (String × Json)) (field : Field) :
    Option Json → Option Json → Prop
  | kept {slot : Option Json} (h : given field.key members = []) :
    Becomes levels members field slot slot
  | read {value plain : Json} (h : given field.key members = [value])
    (hread : field.reader.Reads levels value plain) :
    Becomes levels members field none (some plain)

/-- What members make of the places of the fields. -/
inductive Settles (levels : Nat) (members : List (String × Json)) :
    List Field → Slots → Slots → Prop
  | nil : Settles levels members [] [] []
  | cons {field : Field} {fields : List Field} {slot slot' : Option Json} {slots slots' : Slots}
    (h : Becomes levels members field slot slot')
    (hfields : Settles levels members fields slots slots') :
    Settles levels members (field :: fields) (slot :: slots) (slot' :: slots')

variable {members : List (String × Json)} {slots final : Slots}

/-- A member of no field makes no difference to the places. -/
theorem Settles.of_cons {key : String} {value : Json} (hkey : key ∉ fields.map (·.key))
    (h : Settles levels ((key, value) :: members) fields slots final) :
    Settles levels members fields slots final := by
  induction h with
  | nil => exact .nil
  | @cons field fields slot slot' slots slots' h _ ih =>
    rw [List.map_cons, List.mem_cons, not_or] at hkey
    refine .cons ?_ (ih hkey.2)
    cases h with
    | kept h => exact .kept (given_cons_of_ne hkey.1 ▸ h)
    | read h hread => exact .read (given_cons_of_ne hkey.1 ▸ h) hread

variable {colon : Nat} {key : String} {tree : Tree} {field : Field} {slot : Option Json}

private theorem readMember_own :
    Slots.readMember depth field.key colon tree (field :: fields) (none :: slots) =
      (field.reader depth tree).map (some · :: slots) :=
  if_pos rfl

private theorem readMember_other (h : field.key ≠ key) :
    Slots.readMember depth key colon tree (field :: fields) (slot :: slots) =
      (Slots.readMember depth key colon tree fields slots).map (slot :: ·) :=
  if_neg h

/-- A member is read into the place of its field. -/
theorem readMember_settles (hdepth : levels < depth) {value : Json} (htree : Denotes tree value)
    (hkeys : (fields.map (·.key)).Nodup) (colon : Nat)
    (h : Settles levels ((key, value) :: members) fields slots final) :
    ∃ middle, Slots.readMember depth key colon tree fields slots = .ok middle ∧
      Settles levels members fields middle final := by
  induction h with
  | nil =>
    refine ⟨[], ?_, .nil⟩
    simp only [Slots.readMember, Tree.skip, cut?_eq_none htree]
    rfl
  | @cons field fields slot slot' slots slots' h hfields ih =>
    rw [List.map_cons, List.nodup_cons] at hkeys
    -- A member for the first field is for no other; else its place is further on, if it has one.
    by_cases hkey : field.key = key
    · subst hkey
      have hrest := hfields.of_cons hkeys.1
      cases h with
      | kept h =>
        rw [given_cons_self] at h
        exact absurd h (List.cons_ne_nil _ _)
      | @read _ plain h hread =>
        rw [given_cons_self, List.cons.injEq] at h
        obtain ⟨rfl, hnil⟩ := h
        refine ⟨some plain :: slots, ?_, .cons (.kept hnil) hrest⟩
        rw [readMember_own, hread depth tree hdepth htree]
        rfl
    · obtain ⟨middle, hmiddle, hsettles⟩ := ih hkeys.2
      refine ⟨slot :: middle, ?_, .cons ?_ hsettles⟩
      · rw [readMember_other hkey, hmiddle]
        rfl
      · cases h with
        | kept h => exact .kept (given_cons_of_ne (Ne.symm hkey) ▸ h)
        | read h hread => exact .read (given_cons_of_ne (Ne.symm hkey) ▸ h) hread

/-- Without members the places stay as they are. -/
private theorem Settles.eq_of_nil (h : Settles levels [] fields slots final) : slots = final := by
  induction h with
  | nil => rfl
  | cons h _ ih =>
    cases h with
    | kept _ => rw [ih]
    | read h _ => exact absurd h (by simp)

/-- **Members are read into the places of their fields**, in whatever order they come. -/
theorem readMembers_settles (hdepth : levels < depth) (hkeys : (fields.map (·.key)).Nodup)
    {trees : List Member} (htrees : DenotesMembers trees members)
    (h : Settles levels members fields slots final) :
    Slots.readMembers depth fields slots trees = .ok final := by
  induction members generalizing trees slots with
  | nil =>
    cases htrees
    rw [Slots.readMembers, h.eq_of_nil]
    rfl
  | cons member members ih =>
    obtain ⟨key, value⟩ := member
    cases htrees with
    | @cons _ colon tree _ trees _ htree htrees =>
      obtain ⟨middle, hmiddle, hsettles⟩ := readMember_settles hdepth htree hkeys colon h
      rw [Slots.readMembers]
      simp only [Bind.bind, Except.bind, hmiddle]
      exact ih htrees hsettles

/-- **An object is read as a record** once its members have settled the places of the fields. -/
theorem reads_object {name : String} {out : List (String × Json)}
    (hkeys : (fields.map (·.key)).Nodup)
    (h : Settles levels members fields (fields.map fun _ => none) final)
    (hout : ∀ bytes, Slots.members bytes fields final = .ok out) :
    (Reader.object name fields).Reads (levels + 1) (.object members) (.object out) := by
  intro depth tree hdepth htree
  cases htree with
  | object htrees =>
    have hmembers := readMembers_settles (show levels < depth - 1 by omega) hkeys htrees h
    rw [Reader.object, Reader.openLevel_eq_ok (by omega)]
    simp only [Bind.bind, Except.bind, hmembers, Closing.read, hout]
    rfl

/-- An object is the same for a record that may also be an array. -/
theorem Reader.Reads.record {name : String} {plain : Json}
    (h : (Reader.object name fields).Reads levels (.object members) plain) :
    (Reader.record name fields).Reads levels (.object members) plain := by
  intro depth tree hdepth htree
  cases htree with
  | object htrees => exact h depth _ hdepth (.object htrees)

/-! ### Records of which a field is missing -/

private theorem bind_eq_ok {α β : Type} {x : Except Fault α} {f : α → Except Fault β} {b : β} :
    x >>= f = .ok b ↔ ∃ a, x = .ok a ∧ f a = .ok b := by
  cases x with
  | error fault => simp [Bind.bind, Except.bind]
  | ok a => simp [Bind.bind, Except.bind]

/-- What reading a member does to the first of the places. -/
private theorem readMember_cons {after : Slots}
    (h : Slots.readMember depth key colon tree (field :: fields) (slot :: slots) = .ok after) :
    (field.key = key ∧ ∃ plain, after = some plain :: slots) ∨
      ∃ rest, Slots.readMember depth key colon tree fields slots = .ok rest ∧
        after = slot :: rest := by
  by_cases hkey : field.key = key
  · subst hkey
    cases slot with
    | none =>
      rw [readMember_own] at h
      cases hread : field.reader depth tree with
      | error fault => simp [hread, Except.map] at h
      | ok plain =>
        rw [hread] at h
        exact .inl ⟨rfl, plain, (Except.ok.inj h).symm⟩
    | some other =>
      simp [Slots.readMember, throw, throwThe, MonadExceptOf.throw] at h
  · rw [readMember_other hkey] at h
    cases hread : Slots.readMember depth key colon tree fields slots with
    | error fault => simp [hread, Except.map] at h
    | ok rest =>
      rw [hread] at h
      exact .inr ⟨rest, rfl, (Except.ok.inj h).symm⟩

/-- A member with another key leaves the place of a field free. -/
private theorem readMember_free {after : Slots} (hkey : key ≠ field.key)
    (h : Slots.readMember depth key colon tree fields slots = .ok after)
    (hfree : (field, none) ∈ fields.zip slots) : (field, none) ∈ fields.zip after := by
  induction fields generalizing slots after with
  | nil => exact absurd hfree List.not_mem_nil
  | cons first fields ih =>
    cases slots with
    | nil => exact absurd hfree List.not_mem_nil
    | cons slot slots =>
      rw [List.zip_cons_cons, List.mem_cons] at hfree
      rcases readMember_cons h with ⟨hfirst, plain, rfl⟩ | ⟨rest, hrest, rfl⟩
      · rcases hfree with heq | hfree
        · exact absurd (hfirst.symm.trans (congrArg (·.1.key) heq.symm)) hkey
        · exact List.mem_cons_of_mem _ hfree
      · rcases hfree with heq | hfree
        · exact heq ▸ List.mem_cons_self
        · exact List.mem_cons_of_mem _ (ih hrest hfree)

/-- Members with other keys leave the place of a field free. -/
private theorem readMembers_free {after : Slots} {trees : List Member}
    (htrees : DenotesMembers trees members) (hgiven : given field.key members = [])
    (h : Slots.readMembers depth fields slots trees = .ok after)
    (hfree : (field, none) ∈ fields.zip slots) : (field, none) ∈ fields.zip after := by
  induction members generalizing trees slots with
  | nil =>
    cases htrees
    rw [Slots.readMembers] at h
    exact Except.ok.inj h ▸ hfree
  | cons member members ih =>
    obtain ⟨key, value⟩ := member
    cases htrees with
    | cons htree htrees =>
      rw [Slots.readMembers, bind_eq_ok] at h
      obtain ⟨_, ⟨⟩, h⟩ := h
      obtain ⟨middle, hmiddle, h⟩ := bind_eq_ok.mp h
      have hne : key ≠ field.key := by
        rintro rfl
        rw [given_cons_self] at hgiven
        exact List.cons_ne_nil _ _ hgiven
      rw [given_cons_of_ne hne] at hgiven
      exact ih htrees hgiven h (readMember_free hne hmiddle hfree)

/-- No members are made of places of which a required one is free. -/
private theorem members_ne_ok {bytes : Nat} (hrequired : field.presence = .required)
    (hfree : (field, none) ∈ fields.zip slots) (out : List (String × Json)) :
    Slots.members bytes fields slots ≠ .ok out := by
  induction fields generalizing slots out with
  | nil => exact absurd hfree List.not_mem_nil
  | cons first fields ih =>
    cases slots with
    | nil => exact absurd hfree List.not_mem_nil
    | cons slot slots =>
      rw [List.zip_cons_cons, List.mem_cons] at hfree
      rcases hfree with heq | hfree
      · obtain ⟨rfl, rfl⟩ := Prod.mk.inj heq
        simp [Slots.members, hrequired, throw, throwThe, MonadExceptOf.throw]
      · intro h
        cases slot with
        | some value =>
          rw [Slots.members] at h
          obtain ⟨more, hmore, -⟩ := bind_eq_ok.mp h
          exact ih hfree more hmore
        | none =>
          cases hpresence : first.presence with
          | required => simp [Slots.members, hpresence, throw, throwThe, MonadExceptOf.throw] at h
          | nullable =>
            simp only [Slots.members, hpresence] at h
            obtain ⟨more, hmore, -⟩ := bind_eq_ok.mp h
            exact ih hfree more hmore
          | optional =>
            simp only [Slots.members, hpresence] at h
            exact ih hfree out h

/-- Before any member is read the places of all fields are free. -/
private theorem mem_zip_free (h : field ∈ fields) :
    (field, (none : Option Json)) ∈ fields.zip (fields.map fun _ => none) := by
  induction fields with
  | nil => exact absurd h List.not_mem_nil
  | cons first fields ih =>
    rw [List.map_cons, List.zip_cons_cons]
    rcases List.mem_cons.mp h with rfl | h
    · exact List.mem_cons_self
    · exact List.mem_cons_of_mem _ (ih h)

/-- **An object is no record of which a required field is missing.** -/
theorem Reader.object_ne_ok {name : String} (field : Field) (hfield : field ∈ fields)
    (hrequired : field.presence = .required) (hgiven : given field.key members = [])
    (htree : Denotes tree (.object members)) (out : Json) :
    Reader.object name fields depth tree ≠ .ok out := by
  intro h
  cases htree with
  | object htrees =>
    rw [Reader.object] at h
    obtain ⟨level, -, h⟩ := bind_eq_ok.mp h
    obtain ⟨final, hfinal, h⟩ := bind_eq_ok.mp h
    obtain ⟨-, -, h⟩ := bind_eq_ok.mp h
    obtain ⟨out, hout, -⟩ := bind_eq_ok.mp h
    exact members_ne_ok hrequired (readMembers_free htrees hgiven hfinal (mem_zip_free hfield)) out
      hout

/-! ### Values of any shape -/

private theorem readAnyItems_eq_ok {items : List Json}
    (h : ∀ item ∈ items, ∀ {tree : Tree}, Denotes tree item → readAny depth tree = .ok item)
    {trees : List Tree} (htrees : DenotesItems trees items) :
    readAnyItems depth trees = .ok items := by
  induction items generalizing trees with
  | nil =>
    cases htrees
    rw [readAnyItems]
    rfl
  | cons item items ih =>
    cases htrees with
    | cons htree htrees =>
      rw [readAnyItems, h item List.mem_cons_self htree,
        ih (fun other hother => h other (List.mem_cons_of_mem _ hother)) htrees]
      rfl

private theorem readAnyMembers_eq_ok {members : List (String × Json)}
    (h : ∀ member ∈ members, ∀ {tree : Tree}, Denotes tree member.2 →
      readAny depth tree = .ok member.2)
    {trees : List Member} (htrees : DenotesMembers trees members) :
    readAnyMembers depth trees = .ok members := by
  induction members generalizing trees with
  | nil =>
    cases htrees
    rw [readAnyMembers]
    rfl
  | cons member members ih =>
    cases htrees with
    | cons htree htrees =>
      rw [readAnyMembers, h _ List.mem_cons_self htree,
        ih (fun other hother => h other (List.mem_cons_of_mem _ hother)) htrees]
      rfl

/-- Values with at most so many arrays and objects one in the other. -/
inductive Within : (levels : Nat) → Json → Prop
  | null {levels : Nat} : Within levels .null
  | bool {levels : Nat} (value : Bool) : Within levels (.bool value)
  | number {levels : Nat} (value : Number) : Within levels (.number value)
  | string {levels : Nat} (value : String) : Within levels (.string value)
  | array {levels : Nat} {items : List Json} (h : ∀ item ∈ items, Within levels item) :
    Within (levels + 1) (.array items)
  | object {levels : Nat} {members : List (String × Json)}
    (h : ∀ member ∈ members, Within levels member.2) : Within (levels + 1) (.object members)

theorem Regular.within {json : Json} (h : Regular levels json) : Within levels json := by
  induction h with
  | null => exact .null
  | bool value => exact .bool value
  | natural _ => exact .number _
  | string value => exact .string value
  | array _ ih => exact .array ih
  | object _ _ ih => exact .object ih

/-- **A value is read as any value**, exactly as it is. -/
theorem reads_any {json : Json} (h : Within levels json) :
    Reader.Reads readAny levels json json := by
  intro depth tree hdepth htree
  induction h generalizing depth tree with
  | null | bool _ | number _ | string _ =>
    cases htree
    rfl
  | array _ ih =>
    cases htree with
    | array htrees =>
      have hitems : readAnyItems (depth - 1) _ = _ :=
        readAnyItems_eq_ok (fun item hitem _ => ih item hitem _ _ (by omega)) htrees
      rw [readAny, Reader.openLevel_eq_ok (by omega)]
      simp only [Bind.bind, Except.bind, hitems]
      rfl
  | object _ ih =>
    cases htree with
    | object htrees =>
      have hmembers : readAnyMembers (depth - 1) _ = _ :=
        readAnyMembers_eq_ok (fun member hmember _ => ih member hmember _ _ (by omega)) htrees
      rw [readAny, Reader.openLevel_eq_ok (by omega)]
      simp only [Bind.bind, Except.bind, hmembers]
      rfl

mutual

/-- The tree made of a value denotes it. -/
theorem denotes_ofJson : ∀ json : Json, Denotes (.ofJson json) json
  | .null => .null
  | .bool value => .bool value
  | .number value => .number value
  | .string value => .string value
  | .array items => .array (denotes_ofItems items)
  | .object members => .object (denotes_ofMembers members)

theorem denotes_ofItems : ∀ items : List Json, DenotesItems (Tree.ofItems items) items
  | [] => .nil
  | item :: items => .cons (denotes_ofJson item) (denotes_ofItems items)

theorem denotes_ofMembers : ∀ members : List (String × Json),
    DenotesMembers (Tree.ofMembers members) members
  | [] => .nil
  | (_, value) :: members => .cons (denotes_ofJson value) (denotes_ofMembers members)

end

/-! ### Several shapes -/

namespace Reader

variable {reader : Reader} {readers : List Reader} {name : String} {json plain : Json}

/-- The first shape that fits is taken. -/
theorem firstOf_cons_of_reads (h : reader.Reads levels json plain) (hlevels : levels < depthLimit) :
    firstOf (.ofJson json) (reader :: readers) = some plain := by
  rw [firstOf, h depthLimit _ hlevels (denotes_ofJson json)]

/-- A shape that does not fit is passed over. -/
theorem firstOf_cons_of_ne_ok
    (h : ∀ depth tree, Denotes tree json → ∀ other, reader depth tree ≠ .ok other) :
    firstOf (.ofJson json) (reader :: readers) = firstOf (.ofJson json) readers := by
  rw [firstOf]
  split
  · next other hother => exact absurd hother (h depthLimit _ (denotes_ofJson json) other)
  · rfl

/-- A value is read as the first shape that fits it. -/
theorem reads_oneOf (h : Within levels json)
    (hfirst : firstOf (.ofJson json) readers = some plain) :
    (oneOf name readers).Reads levels json plain := by
  intro depth tree hdepth htree
  rw [oneOf, reads_any h depth tree hdepth htree]
  simp only [Bind.bind, Except.bind, hfirst]
  rfl

end Reader

end SourceOutline.Json
