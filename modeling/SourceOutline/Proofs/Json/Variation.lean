import SourceOutline.Proofs.Json.Shape

/-!
# Values that say the same

A text says more of a value than a reader looks at: the order of the members of an object, members
that no field is read from, and a `null` where a missing member is taken for one. A `Json.Schema`
is what is known of how the values of a type are written, and `Json.Varies` relates a plain form to
the values that differ from it in these things only, at any depth.

A reader `Admits` a plain form if it makes that form of everything that varies from it. For each way
to build a reader there is a lemma that says what it admits. **Main result for records**
(`admits_record`): a record admits the members that its fields suit, wherever they stand among
others.
-/

namespace SourceOutline.Json

/-! ### Schemas and variations -/

/-- What is known of how the values of a type are written. -/
inductive Schema where
  /-- In one way, without parts. -/
  | scalar
  | list (items : Schema)
  /-- As objects with these members, of which some may be missing. -/
  | record (fields : List (String × Presence × Schema))

/-- Strings, truth values, natural numbers of 64 bits and `null`. -/
inductive IsScalar : Json → Prop
  | null : IsScalar .null
  | bool (value : Bool) : IsScalar (.bool value)
  | natural {n : Nat} (h : n ≤ maxWhole) : IsScalar (.ofNat n)
  | string (value : String) : IsScalar (.string value)

mutual

/-- The values that say the same as a plain form, for one who knows the schema. -/
inductive Varies : Schema → Json → Json → Prop
  | scalar {value : Json} (h : IsScalar value) : Varies .scalar value value
  | null (schema : Schema) : Varies schema .null .null
  | list {schema : Schema} {items others : List Json} (h : VariesItems schema items others) :
    Varies (.list schema) (.array items) (.array others)
  /-- The members that are known may come in any order, and scalars under other keys may stand among
  them. -/
  | record {known : List (String × Presence × Schema)} {members others : List (String × Json)}
    (hknown : ∀ key presence schema, known.lookup key = some (presence, schema) →
      VariesGiven presence schema (given key members) (given key others))
    (hother : ∀ member ∈ others, known.lookup member.1 = none → IsScalar member.2) :
    Varies (.record known) (.object members) (.object others)

/-- Items that say the same one by one. -/
inductive VariesItems : Schema → List Json → List Json → Prop
  | nil {schema : Schema} : VariesItems schema [] []
  | cons {schema : Schema} {item other : Json} {items others : List Json}
    (h : Varies schema item other) (hitems : VariesItems schema items others) :
    VariesItems schema (item :: items) (other :: others)

/-- What two objects that say the same give to a key that is known. -/
inductive VariesGiven : Presence → Schema → List Json → List Json → Prop
  | nothing {presence : Presence} {schema : Schema} : VariesGiven presence schema [] []
  | value {presence : Presence} {schema : Schema} {value other : Json}
    (h : Varies schema value other) : VariesGiven presence schema [value] [other]
  /-- A member that may be `null` may be left out where it is. -/
  | omitted {schema : Schema} : VariesGiven .nullable schema [.null] []

end

theorem VariesGiven.eq_nil {presence : Presence} {schema : Schema} {others : List Json}
    (h : VariesGiven presence schema [] others) : others = [] := by
  cases h
  rfl

variable {levels : Nat} {schema : Schema} {presence : Presence} {plain other : Json}
  {known : List (String × Presence × Schema)} {members others : List (String × Json)}

theorem IsScalar.within (h : IsScalar plain) : Within levels plain := by
  cases h with
  | null => exact .null
  | bool value => exact .bool value
  | natural _ => exact .number _
  | string value => exact .string value

mutual

/-- A variation is nested no deeper than the plain form. -/
theorem Varies.within : ∀ {levels : Nat} {schema : Schema} {plain other : Json},
    Varies schema plain other → Within levels plain → Within levels other
  | _, _, _, _, .scalar _, hwithin => hwithin
  | _, _, _, _, .null _, hwithin => hwithin
  | _, _, _, _, .list h, .array hitems => .array (h.within hitems)
  | _, _, _, _, @Varies.record known _ _ hknown hother, .object hmembers => by
    refine .object fun member hmember => ?_
    cases hlookup : known.lookup member.1 with
    | none => exact (hother member hmember hlookup).within
    | some field =>
      obtain ⟨presence, schema⟩ := field
      exact (hknown _ _ _ hlookup).within (fun value hvalue => hmembers _ (mem_given.mp hvalue)) _
        (mem_given.mpr hmember)

theorem VariesItems.within : ∀ {levels : Nat} {schema : Schema} {items others : List Json},
    VariesItems schema items others → (∀ item ∈ items, Within levels item) →
      ∀ item ∈ others, Within levels item
  | _, _, _, _, .nil, hitems => hitems
  | _, _, _, _, .cons h hrest, hitems => by
    rw [List.forall_mem_cons] at hitems ⊢
    exact ⟨h.within hitems.1, hrest.within hitems.2⟩

theorem VariesGiven.within : ∀ {levels : Nat} {presence : Presence} {schema : Schema}
    {values others : List Json}, VariesGiven presence schema values others →
    (∀ value ∈ values, Within levels value) → ∀ value ∈ others, Within levels value
  | _, _, _, _, _, .nothing, hvalues => hvalues
  | _, _, _, _, _, .value h, hvalues => by
    rw [List.forall_mem_singleton] at hvalues ⊢
    exact h.within hvalues
  | _, _, _, _, _, .omitted, _ => fun _ hvalue => absurd hvalue List.not_mem_nil

end

theorem IsScalar.eq_of_agrees (h : IsScalar plain) (hother : Agrees plain other) :
    other = plain := by
  cases h <;> cases hother <;> rfl

mutual

/-- A variation with the members of its objects in another order is a variation. -/
theorem Varies.agrees : ∀ {schema : Schema} {plain other another : Json},
    Varies schema plain other → Agrees other another → Varies schema plain another
  | _, _, _, _, .scalar hscalar, h => by
    rw [hscalar.eq_of_agrees h]
    exact .scalar hscalar
  | _, _, _, _, .null schema, .null => .null schema
  | _, _, _, _, .list h, .array hitems => .list (h.agrees hitems)
  | _, _, _, _, .record hknown hother, .object hgiven => by
    refine .record (fun key presence schema hlookup => ?_) fun member hmember hlookup => ?_
    · exact (hknown key presence schema hlookup).agrees (hgiven key)
    · obtain ⟨value, hvalue, hagrees⟩ := (hgiven member.1).exists_of_mem _ (mem_given.mpr hmember)
      have hscalar := hother (member.1, value) (mem_given.mp hvalue) hlookup
      rw [hscalar.eq_of_agrees hagrees]
      exact hscalar

theorem VariesItems.agrees : ∀ {schema : Schema} {items others another : List Json},
    VariesItems schema items others → AgreesItems others another → VariesItems schema items another
  | _, _, _, _, .nil, .nil => .nil
  | _, _, _, _, .cons h hrest, .cons hagrees hitems =>
    .cons (h.agrees hagrees) (hrest.agrees hitems)

theorem VariesGiven.agrees : ∀ {presence : Presence} {schema : Schema}
    {values others another : List Json}, VariesGiven presence schema values others →
      AgreesItems others another → VariesGiven presence schema values another
  | _, _, _, _, _, .nothing, .nil => .nothing
  | _, _, _, _, _, .value h, .cons hagrees .nil => .value (h.agrees hagrees)
  | _, _, _, _, _, .omitted, .nil => .omitted

end

/-- Objects say the same if they do for each of the members that are known, and all others are
scalars. -/
theorem varies_record
    (hknown : ∀ field ∈ known,
      VariesGiven field.2.1 field.2.2 (given field.1 members) (given field.1 others))
    (hother : ∀ member ∈ others, member.1 ∈ known.map (·.1) ∨ IsScalar member.2) :
    Varies (.record known) (.object members) (.object others) := by
  refine .record (fun key presence schema hlookup => ?_) fun member hmember hlookup => ?_
  · obtain ⟨front, back, rfl, -⟩ := List.lookup_eq_some_iff.mp hlookup
    exact hknown (key, presence, schema) (List.mem_append_right _ List.mem_cons_self)
  · refine (hother member hmember).resolve_left fun hkey => ?_
    obtain ⟨field, hfield, hkey⟩ := List.mem_map.mp hkey
    have hne := List.lookup_eq_none_iff.mp hlookup field hfield
    simp [hkey] at hne

/-- One more scalar under a key that is not known makes no difference. -/
theorem Varies.cons {key : String} {value : Json}
    (h : Varies (.record known) (.object members) (.object others)) (hkey : known.lookup key = none)
    (hvalue : IsScalar value) :
    Varies (.record known) (.object members) (.object ((key, value) :: others)) := by
  cases h with
  | record hknown hother =>
    refine .record (fun other presence schema hlookup => ?_)
      (List.forall_mem_cons.mpr ⟨fun _ => hvalue, hother⟩)
    have hne : key ≠ other := by
      rintro rfl
      rw [hkey] at hlookup
      cases hlookup
    rw [given_cons_of_ne hne]
    exact hknown other presence schema hlookup

/-! ### What a reader admits -/

/-- The reader makes a plain form that is of the schema, and makes it of everything that varies from
it, where more than the given number of levels are left. -/
structure Reader.Admits (reader : Reader) (levels : Nat) (schema : Schema) (plain : Json) :
    Prop where
  conforms : Varies schema plain plain
  reads : ∀ other, Varies schema plain other → reader.Reads levels other plain

namespace Reader

variable {reader : Reader}

/-- A value without parts is admitted if it is read. -/
theorem Reads.admits (h : reader.Reads levels plain plain) (hplain : IsScalar plain) :
    reader.Admits levels .scalar plain := by
  refine ⟨.scalar hplain, fun other hother => ?_⟩
  cases hother <;> exact h

theorem admits_string (value : String) : string.Admits levels .scalar (.string value) :=
  (reads_string value).admits (.string value)

theorem admits_boolean (value : Bool) : boolean.Admits levels .scalar (.bool value) :=
  (reads_boolean value).admits (.bool value)

theorem admits_natural {n : Nat} (h : n ≤ maxWhole) : natural.Admits levels .scalar (.ofNat n) :=
  (reads_natural h).admits (.natural h)

theorem admits_word {wanted : String} {words : List String} {value : String}
    (h : words.contains value = true) :
    (word wanted words).Admits levels .scalar (.string value) :=
  (reads_word h).admits (.string value)

theorem admits_option_null : (option reader).Admits levels schema .null := by
  refine ⟨.null schema, fun other hother depth tree _ htree => ?_⟩
  cases hother <;> cases htree <;> rfl

/-- Where the value is not `null` an option admits what the reader itself does. -/
theorem admits_option (h : reader.Admits levels schema plain) (hplain : plain ≠ .null) :
    (option reader).Admits levels schema plain := by
  refine ⟨h.conforms, fun other hother depth tree hdepth htree => ?_⟩
  rw [option]
  · exact h.reads other hother depth tree hdepth htree
  · rintro peek stop rfl
    cases htree
    cases hother <;> exact hplain rfl

/-! ### Items -/

theorem mapM_eq_ok_of_admits {depth : Nat} (hdepth : levels < depth) {items : List Json}
    (h : ∀ item ∈ items, reader.Admits levels schema item) {values : List Json} {trees : List Tree}
    (hvalues : VariesItems schema items values) (htrees : DenotesItems trees values) :
    trees.mapM (reader depth) = .ok items := by
  induction items generalizing values trees with
  | nil =>
    cases hvalues
    cases htrees
    rfl
  | cons item items ih =>
    cases hvalues with
    | cons hvalue hvalues =>
      cases htrees with
      | cons htree htrees =>
        rw [List.mapM_cons, (h item List.mem_cons_self).reads _ hvalue _ _ hdepth htree,
          ih (fun other hother => h other (List.mem_cons_of_mem _ hother)) hvalues htrees]
        rfl

theorem variesItems_refl {items : List Json} (h : ∀ item ∈ items, Varies schema item item) :
    VariesItems schema items items := by
  induction items with
  | nil => exact .nil
  | cons item items ih =>
    rw [List.forall_mem_cons] at h
    exact .cons h.1 (ih h.2)

/-- A list admits an array whose items its reader admits. -/
theorem admits_list {items : List Json} (h : ∀ item ∈ items, reader.Admits levels schema item) :
    (list reader).Admits (levels + 1) (.list schema) (.array items) := by
  refine ⟨.list (variesItems_refl fun item hitem => (h item hitem).conforms), ?_⟩
  intro other hother depth tree hdepth htree
  cases hother with
  | list hvalues =>
    cases htree with
    | array htrees =>
      have hvalue : levels < depth - 1 := by omega
      rw [list, openLevel_eq_ok (by omega)]
      simp only [Bind.bind, Except.bind, mapM_eq_ok_of_admits hvalue h hvalues htrees]
      rfl

end Reader

/-! ### Members -/

/-- Members that stand for fields in the order of these: each has a value that its field admits, and
optional fields may have none. What is known of a member is that it may be missing where the field
may. -/
inductive Suits (levels : Nat) (known : List (String × Presence × Schema)) :
    List Field → List (String × Json) → Prop
  | nil : Suits levels known [] []
  | present {field : Field} {fields : List Field} {schema : Schema} {value : Json}
    {members : List (String × Json)}
    (hknown : known.lookup field.key = some (field.presence, schema))
    (h : field.reader.Admits levels schema value) (hfields : Suits levels known fields members) :
    Suits levels known (field :: fields) ((field.key, value) :: members)
  | absent {field : Field} {fields : List Field} {schema : Schema} {members : List (String × Json)}
    (hknown : known.lookup field.key = some (field.presence, schema))
    (h : field.presence = .optional) (hfields : Suits levels known fields members) :
    Suits levels known (field :: fields) members

namespace Suits

variable {fields : List Field}

/-- The keys are those of fields. -/
theorem mem_keys {key : String} (h : Suits levels known fields members)
    (hkey : key ∈ members.map (·.1)) : key ∈ fields.map (·.key) := by
  induction h with
  | nil => exact hkey
  | present _ _ _ ih =>
    rw [List.map_cons, List.mem_cons] at hkey ⊢
    exact hkey.imp_right ih
  | absent _ _ _ ih => exact List.mem_cons_of_mem _ (ih hkey)

/-- Members that say the same settle the places of the fields, and the places make up the members
as they are in the plain form. -/
theorem settles (h : Suits levels known fields members) (hkeys : (fields.map (·.key)).Nodup)
    (hothers : ∀ field ∈ fields, ∀ schema, known.lookup field.key = some (field.presence, schema) →
      VariesGiven field.presence schema (given field.key members) (given field.key others)) :
    ∃ final, Settles levels others fields (fields.map fun _ => none) final ∧
      ∀ bytes, Slots.members bytes fields final = .ok members := by
  induction h with
  | nil => exact ⟨[], .nil, fun bytes => rfl⟩
  | @present field fields schema value members hknown h hfields ih =>
    rw [List.map_cons, List.nodup_cons] at hkeys
    have hrest : ∀ other ∈ fields, ∀ schema,
        known.lookup other.key = some (other.presence, schema) →
          VariesGiven other.presence schema (given other.key members) (given other.key others) := by
      intro other hother schema hlookup
      have hne : field.key ≠ other.key := by
        intro heq
        exact hkeys.1 (heq ▸ List.mem_map_of_mem hother)
      have hvaries := hothers other (List.mem_cons_of_mem _ hother) schema hlookup
      rwa [given_cons_of_ne hne] at hvaries
    obtain ⟨final, hsettles, hout⟩ := ih hkeys.2 hrest
    have hfirst := hothers field List.mem_cons_self schema hknown
    rw [given_cons_self, given_eq_nil fun hkey => hkeys.1 (hfields.mem_keys hkey)] at hfirst
    generalize hpresence : field.presence = presence at hfirst
    generalize hgiven : given field.key others = values at hfirst
    cases hfirst with
    | value hvalue =>
      have hread := h.reads _ hvalue
      refine ⟨some value :: final, .cons (.read hgiven hread) hsettles, fun bytes => ?_⟩
      rw [Slots.members, hout]
      rfl
    | omitted =>
      refine ⟨none :: final, .cons (.kept hgiven) hsettles, fun bytes => ?_⟩
      simp only [Slots.members, hpresence, hout]
      rfl
  | @absent field fields schema members hknown h hfields ih =>
    rw [List.map_cons, List.nodup_cons] at hkeys
    obtain ⟨final, hsettles, hout⟩ :=
      ih hkeys.2 fun other hother => hothers other (List.mem_cons_of_mem _ hother)
    have hfirst := hothers field List.mem_cons_self schema hknown
    rw [given_eq_nil fun hkey => hkeys.1 (hfields.mem_keys hkey), h] at hfirst
    generalize hgiven : given field.key others = values at hfirst
    cases hfirst with
    | nothing =>
      refine ⟨none :: final, .cons (.kept hgiven) hsettles, fun bytes => ?_⟩
      simp only [Slots.members, h]
      exact hout bytes

/-- What is given to a key that is known varies as itself. -/
theorem variesGiven (h : Suits levels known fields members) (hkeys : (fields.map (·.key)).Nodup)
    {key : String} (hlookup : known.lookup key = some (presence, schema)) :
    VariesGiven presence schema (given key members) (given key members) := by
  induction h with
  | nil => exact .nothing
  | @present field fields fieldSchema value members hknown h hfields ih =>
    rw [List.map_cons, List.nodup_cons] at hkeys
    by_cases hkey : field.key = key
    · subst hkey
      rw [hknown] at hlookup
      cases hlookup
      rw [given_cons_self, given_eq_nil fun hkey => hkeys.1 (hfields.mem_keys hkey)]
      exact .value h.conforms
    · rw [given_cons_of_ne hkey]
      exact ih hkeys.2
  | absent _ _ _ ih =>
    rw [List.map_cons, List.nodup_cons] at hkeys
    exact ih hkeys.2

theorem lookup_ne_none (h : Suits levels known fields members) :
    ∀ member ∈ members, known.lookup member.1 ≠ none := by
  induction h with
  | nil => exact fun _ hmember => absurd hmember List.not_mem_nil
  | present hknown _ _ ih =>
    refine List.forall_mem_cons.mpr ⟨?_, ih⟩
    rw [hknown]
    exact Option.some_ne_none _
  | absent _ _ _ ih => exact ih

/-- Members that suit fields are of the schema. -/
theorem conforms (h : Suits levels known fields members) (hkeys : (fields.map (·.key)).Nodup) :
    Varies (.record known) (.object members) (.object members) :=
  .record (fun _ _ _ hlookup => h.variesGiven hkeys hlookup)
    fun member hmember hlookup => absurd hlookup (h.lookup_ne_none member hmember)

end Suits

namespace Reader

variable {fields : List Field}

/-- A record that must be an object admits the members that suit its fields. -/
theorem admits_object (name : String) (h : Suits levels known fields members)
    (hkeys : (fields.map (·.key)).Nodup) :
    (object name fields).Admits (levels + 1) (.record known) (.object members) := by
  refine ⟨h.conforms hkeys, fun other hother => ?_⟩
  cases hother with
  | record hknown _ =>
    obtain ⟨final, hsettles, hout⟩ :=
      h.settles hkeys fun field _ schema hlookup => hknown field.key _ schema hlookup
    exact reads_object hkeys hsettles hout

/-- **A record admits the members that suit its fields.** -/
theorem admits_record (name : String) (h : Suits levels known fields members)
    (hkeys : (fields.map (·.key)).Nodup) :
    (record name fields).Admits (levels + 1) (.record known) (.object members) := by
  have hobject := admits_object name h hkeys
  refine ⟨hobject.conforms, fun other hother => ?_⟩
  cases hother with
  | record hknown hother => exact (hobject.reads _ (.record hknown hother)).record

end Reader

end SourceOutline.Json
