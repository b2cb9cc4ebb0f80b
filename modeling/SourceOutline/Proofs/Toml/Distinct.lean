import SourceOutline.Toml.Document

/-!
# Tables that say nothing twice

The table that a text stands for has each of its keys once, and so has every table in it
(`Value.Distinct`). While a text is read this is so for the tables that are being built
(`Members.Distinct`): whatever a line says is put in the place of its key or behind the others
(`distinct_put`), so `addValue`, `declare` and `declareItem` keep keys distinct.

**Main result** (`Document.distinct_of_parse?`): it holds for every text that can be read. So the
value of a key in such a table is the one that is given to it, wherever it stands
(`Table.find?_eq_some_iff`).
-/

namespace SourceOutline.Toml

/-! ### Values and members with distinct keys -/

/-- Values in which no table has a key twice. -/
inductive Value.Distinct : Value → Prop
  | string (text : String) : Distinct (.string text)
  | integer (value : Int) : Distinct (.integer value)
  | float (text : String) : Distinct (.float text)
  | boolean (value : Bool) : Distinct (.boolean value)
  | datetime (text : String) : Distinct (.datetime text)
  | array {items : List Value} (h : ∀ item ∈ items, Distinct item) : Distinct (.array items)
  | table {members : List (String × Value)} (hkeys : (members.map (·.1)).Nodup)
    (h : ∀ member ∈ members, Distinct member.2) : Distinct (.table members)

/-- Items in which no table has a key twice. -/
inductive Item.Distinct : Item → Prop
  | value {value : Value} (h : value.Distinct) : Distinct (.value value)
  | table (origin : Origin) {members : List (String × Item)} (hkeys : (members.map (·.1)).Nodup)
    (h : ∀ member ∈ members, Distinct member.2) : Distinct (.table origin members)
  | tables {earlier : List (List (String × Item))} {last : List (String × Item)}
    (hkeys : ∀ members ∈ earlier ++ [last], (members.map (·.1)).Nodup)
    (h : ∀ members ∈ earlier ++ [last], ∀ member ∈ members, Distinct member.2) :
    Distinct (.tables earlier last)

/-- Members with distinct keys, whose items have distinct keys too. -/
structure Members.Distinct (members : Members) : Prop where
  keys : (members.map (·.1)).Nodup
  items : ∀ member ∈ members, member.2.Distinct

variable {members last : Members} {earlier : List Members} {key : String} {item : Item}

theorem Value.distinct_table_iff {members : Table} :
    (Value.table members).Distinct ↔
      (members.map (·.1)).Nodup ∧ ∀ member ∈ members, member.2.Distinct := by
  constructor
  · rintro ⟨⟩
    next hkeys h => exact ⟨hkeys, h⟩
  · rintro ⟨hkeys, h⟩
    exact .table hkeys h

theorem Item.distinct_table_iff {origin : Origin} :
    (Item.table origin members).Distinct ↔ members.Distinct := by
  constructor
  · rintro ⟨⟩
    next hkeys h => exact ⟨hkeys, h⟩
  · intro h
    exact .table origin h.keys h.items

theorem Item.distinct_tables_iff :
    (Item.tables earlier last).Distinct ↔ ∀ members ∈ earlier ++ [last], members.Distinct := by
  constructor
  · rintro ⟨⟩
    next hkeys h => exact fun members hmembers => ⟨hkeys members hmembers, h members hmembers⟩
  · intro h
    exact .tables (fun members hmembers => (h members hmembers).keys)
      fun members hmembers => (h members hmembers).items

/-! ### What is distinct when everything is read -/

theorem closeMembers_eq_map (members : Members) :
    closeMembers members = members.map fun member => (member.1, member.2.close) := by
  induction members with
  | nil => rw [closeMembers, List.map_nil]
  | cons member members ih =>
    obtain ⟨key, item⟩ := member
    rw [closeMembers, ih, List.map_cons]

theorem closeTables_eq_map (tables : List (List (String × Item))) :
    closeTables tables = tables.map fun members => .table (closeMembers members) := by
  induction tables with
  | nil => rw [closeTables, List.map_nil]
  | cons members tables ih => rw [closeTables, ih, List.map_cons]

/-- A table of members is distinct when it is closed, if its items are when they are. -/
private theorem distinct_table_close (hkeys : (members.map (·.1)).Nodup)
    (h : ∀ member ∈ members, member.2.close.Distinct) :
    (Value.table (closeMembers members)).Distinct := by
  rw [closeMembers_eq_map]
  refine .table ?_ fun member hmember => ?_
  · rwa [List.map_map]
  · obtain ⟨member, hmem, rfl⟩ := List.mem_map.mp hmember
    exact h member hmem

/-- What is distinct stays so when it is closed. -/
theorem Item.Distinct.close (h : item.Distinct) : item.close.Distinct := by
  induction h with
  | value h =>
    rw [Item.close]
    exact h
  | table origin hkeys _ ih =>
    rw [Item.close]
    exact distinct_table_close hkeys ih
  | @tables earlier last hkeys _ ih =>
    have htables : closeTables earlier ++ [.table (closeMembers last)] =
        (earlier ++ [last]).map fun members => .table (closeMembers members) := by
      rw [closeTables_eq_map, List.map_append, List.map_singleton]
    rw [Item.close, htables]
    refine .array fun item hitem => ?_
    obtain ⟨members, hmembers, rfl⟩ := List.mem_map.mp hitem
    exact distinct_table_close (hkeys members hmembers) (ih members hmembers)

theorem Members.Distinct.close (h : members.Distinct) :
    (Value.table (closeMembers members)).Distinct :=
  distinct_table_close h.keys fun member hmember => (h.items member hmember).close

/-! ### The value of a key -/

namespace Table

variable {table : Table} {value : Value}

theorem find?_eq_some_iff (hkeys : (table.map (·.1)).Nodup) :
    table.find? key = some value ↔ (key, value) ∈ table := by
  rw [find?, Option.map_eq_some_iff]
  constructor
  · rintro ⟨⟨found, value⟩, hfind, rfl⟩
    obtain rfl : found = key := by simpa using List.find?_some hfind
    exact List.mem_of_find?_eq_some hfind
  · intro h
    refine ⟨(key, value), ?_, rfl⟩
    induction table with
    | nil => exact absurd h List.not_mem_nil
    | cons member table ih =>
      rw [List.map_cons, List.nodup_cons] at hkeys
      rcases List.mem_cons.mp h with rfl | h
      · exact List.find?_cons_of_pos (by simp)
      · have hne : member.1 ≠ key := fun heq => hkeys.1 (heq ▸ List.mem_map_of_mem h)
        rw [List.find?_cons_of_neg (by simpa using hne)]
        exact ih hkeys.2 h

theorem find?_eq_none_iff : table.find? key = none ↔ ∀ value, (key, value) ∉ table := by
  rw [find?, Option.map_eq_none_iff, List.find?_eq_none]
  constructor
  · intro h value hmember
    exact h _ hmember (by simp)
  · rintro h ⟨found, value⟩ hmember hkey
    obtain rfl : found = key := by simpa using hkey
    exact h value hmember

end Table

/-! ### What lines add -/

namespace Members

theorem distinct_nil : Distinct [] :=
  ⟨.nil, List.forall_mem_nil _⟩

/-- The item of a key is one of those in the members. -/
theorem Distinct.find? (h : members.Distinct) (hfind : members.find? key = some item) :
    item.Distinct := by
  rw [Members.find?, Option.map_eq_some_iff] at hfind
  obtain ⟨member, hmember, rfl⟩ := hfind
  exact h.items member (List.mem_of_find?_eq_some hmember)

theorem mem_put {member : String × Item} (h : member ∈ members.put key item) :
    member = (key, item) ∨ member ∈ members := by
  induction members with
  | nil => exact .inl (List.mem_singleton.mp h)
  | cons first rest ih =>
    obtain ⟨k, i⟩ := first
    rw [put] at h
    split at h
    · exact (List.mem_cons.mp h).imp_right (List.mem_cons_of_mem _)
    · rcases List.mem_cons.mp h with rfl | h
      · exact .inr List.mem_cons_self
      · exact (ih h).imp_right (List.mem_cons_of_mem _)

private theorem nodup_put (h : (members.map (·.1)).Nodup) :
    ((members.put key item).map (·.1)).Nodup := by
  induction members with
  | nil => exact List.pairwise_singleton _ key
  | cons first rest ih =>
    obtain ⟨k, i⟩ := first
    rw [List.map_cons, List.nodup_cons] at h
    rw [put]
    split
    · next heq =>
      rw [List.map_cons, List.nodup_cons]
      exact heq ▸ h
    · next hne =>
      rw [List.map_cons, List.nodup_cons]
      refine ⟨fun hk => ?_, ih h.2⟩
      obtain ⟨member, hmember, hkey⟩ := List.mem_map.mp hk
      rcases mem_put hmember with rfl | hmember
      · exact hne hkey.symm
      · exact h.1 (List.mem_map.mpr ⟨member, hmember, hkey⟩)

/-- **What is put among distinct members leaves them distinct.** -/
theorem distinct_put (h : members.Distinct) (hitem : item.Distinct) :
    (members.put key item).Distinct := by
  refine ⟨nodup_put h.keys, fun member hmember => ?_⟩
  rcases mem_put hmember with rfl | hmember
  · exact hitem
  · exact h.items member hmember

variable {keys : List String} {value : Value} {result : Members}

theorem distinct_addValue (hvalue : value.Distinct) (h : members.Distinct)
    (hresult : members.addValue keys value = some result) : result.Distinct := by
  fun_induction addValue keys value members generalizing result with
  | case1 | case3 | case6 => cases hresult
  | case2 key value members hfind =>
    obtain rfl := Option.some.inj hresult
    exact distinct_put h (.value hvalue)
  | case4 key keys value members _ hfind ih =>
    obtain ⟨inner, hinner, hresult⟩ := Option.bind_eq_some_iff.mp hresult
    obtain rfl := Option.some.inj hresult
    exact distinct_put h (Item.distinct_table_iff.mpr (ih hvalue distinct_nil hinner))
  | case5 key keys value members _ inner hfind ih =>
    obtain ⟨inner', hinner, hresult⟩ := Option.bind_eq_some_iff.mp hresult
    obtain rfl := Option.some.inj hresult
    have hfound := Item.distinct_table_iff.mp (h.find? hfind)
    exact distinct_put h (Item.distinct_table_iff.mpr (ih hvalue hfound hinner))

/-- Where a change keeps keys distinct, it does so inside other tables. -/
theorem distinct_within {change : Members → Option Members}
    (hchange : ∀ {members result : Members}, members.Distinct → change members = some result →
      result.Distinct)
    (h : members.Distinct) (hresult : members.within change keys = some result) :
    result.Distinct := by
  fun_induction within change keys members generalizing result with
  | case1 members => exact hchange h hresult
  | case2 key keys members hfind ih =>
    obtain ⟨inner, hinner, hresult⟩ := Option.bind_eq_some_iff.mp hresult
    obtain rfl := Option.some.inj hresult
    exact distinct_put h (Item.distinct_table_iff.mpr (ih distinct_nil hinner))
  | case3 => cases hresult
  | case4 key keys members origin inner hfind ih =>
    obtain ⟨inner', hinner, hresult⟩ := Option.bind_eq_some_iff.mp hresult
    obtain rfl := Option.some.inj hresult
    have hfound := Item.distinct_table_iff.mp (h.find? hfind)
    exact distinct_put h (Item.distinct_table_iff.mpr (ih hfound hinner))
  | case5 key keys members earlier last hfind ih =>
    obtain ⟨last', hlast, hresult⟩ := Option.bind_eq_some_iff.mp hresult
    obtain rfl := Option.some.inj hresult
    have hfound := Item.distinct_tables_iff.mp (h.find? hfind)
    rw [List.forall_mem_append, List.forall_mem_singleton] at hfound
    refine distinct_put h (Item.distinct_tables_iff.mpr ?_)
    rw [List.forall_mem_append, List.forall_mem_singleton]
    exact ⟨hfound.1, ih hfound.2 hlast⟩

theorem distinct_nameTable (h : members.Distinct) (hresult : nameTable key members = some result) :
    result.Distinct := by
  rw [nameTable] at hresult
  split at hresult
  · obtain rfl := Option.some.inj hresult
    exact distinct_put h (Item.distinct_table_iff.mpr distinct_nil)
  · next inner hfind =>
    obtain rfl := Option.some.inj hresult
    exact distinct_put h (Item.distinct_table_iff.mpr (Item.distinct_table_iff.mp (h.find? hfind)))
  · cases hresult

theorem distinct_nameItem (h : members.Distinct) (hresult : nameItem key members = some result) :
    result.Distinct := by
  rw [nameItem] at hresult
  split at hresult
  · obtain rfl := Option.some.inj hresult
    exact distinct_put h (Item.distinct_tables_iff.mpr (List.forall_mem_singleton.mpr distinct_nil))
  · next earlier last hfind =>
    obtain rfl := Option.some.inj hresult
    have hfound := Item.distinct_tables_iff.mp (h.find? hfind)
    refine distinct_put h (Item.distinct_tables_iff.mpr ?_)
    rw [List.forall_mem_append, List.forall_mem_singleton]
    exact ⟨hfound, distinct_nil⟩
  · cases hresult

theorem distinct_declare (h : members.Distinct) (hresult : members.declare keys = some result) :
    result.Distinct := by
  rw [declare] at hresult
  split at hresult
  · cases hresult
  · exact distinct_within distinct_nameTable h hresult

theorem distinct_declareItem (h : members.Distinct)
    (hresult : members.declareItem keys = some result) : result.Distinct := by
  rw [declareItem] at hresult
  split at hresult
  · cases hresult
  · exact distinct_within distinct_nameItem h hresult

end Members

/-! ### What is read -/

namespace Parser

variable {α β : Type} {P : α → Prop} {Q : β → Prop}

/-- Whether all that can be read has a property. -/
def Yields (parser : Parser α) (P : α → Prop) : Prop :=
  ∀ text result rest, parser text = some (result, rest) → P result

theorem Yields.bind {parser : Parser α} {next : α → Parser β} (h : Yields parser P)
    (hnext : ∀ result, P result → Yields (next result) Q) : Yields (parser >>= next) Q := by
  intro text result rest hresult
  obtain ⟨⟨first, middle⟩, hfirst, hsecond⟩ := Option.bind_eq_some_iff.mp hresult
  exact hnext first (h _ _ _ hfirst) _ _ _ hsecond

/-- What is read first may not matter for what is read behind it. -/
theorem yields_of_next {parser : Parser α} {next : α → Parser β}
    (h : ∀ result, Yields (next result) Q) : Yields (parser >>= next) Q := by
  have hany : Yields parser fun _ => True := fun _ _ _ _ => trivial
  exact hany.bind fun result _ => h result

theorem yields_pure {result : α} (h : P result) : Yields (pure result) P := by
  rintro text _ _ ⟨⟩
  exact h

theorem Yields.map {parser : Parser α} {f : α → β} (h : Yields parser fun result => Q (f result)) :
    Yields (f <$> parser) Q := by
  have hbind : Yields (parser >>= fun result => pure (f result)) Q :=
    h.bind fun _ hresult => yields_pure hresult
  exact hbind

theorem yields_failure : Yields failure P := by
  intro text result rest h
  cases h

theorem yields_ofOption {value : Option α} (h : ∀ result, value = some result → P result) :
    Yields (ofOption value) P := by
  intro text result rest hresult
  obtain ⟨result', hvalue, heq⟩ := Option.map_eq_some_iff.mp hresult
  cases heq
  exact h _ hvalue

end Parser

open Toml.Parser

theorem yields_scalar : Yields scalar Value.Distinct := by
  refine yields_of_next fun c => ?_
  split
  · exact yields_of_next fun _ => yields_pure (.boolean _)
  · exact yields_of_next fun _ => yields_pure (.boolean _)
  · refine yields_of_next fun text => ?_
    split
    · exact yields_pure (.datetime _)
    · refine yields_of_next fun text => ?_
      split
      · exact yields_pure (.float _)
      · exact yields_of_next fun _ => yields_pure (.integer _)

variable {value : Parser Value}

theorem yields_arrayItems (h : Yields value Value.Distinct) (rounds : Nat) :
    Yields (arrayItems value rounds) fun items => ∀ item ∈ items, item.Distinct := by
  induction rounds with
  | zero => exact yields_failure
  | succ rounds ih =>
    rw [arrayItems]
    refine yields_of_next fun _ => yields_of_next fun _ => yields_of_next fun closed => ?_
    split
    · exact yields_pure (List.forall_mem_nil _)
    · refine h.bind fun item hitem => ?_
      refine yields_of_next fun _ => yields_of_next fun _ => yields_of_next fun more => ?_
      split
      · exact ih.bind fun items hitems => yields_pure (List.forall_mem_cons.mpr ⟨hitem, hitems⟩)
      · exact yields_of_next fun _ => yields_pure (List.forall_mem_singleton.mpr hitem)

theorem yields_inlinePairs (h : Yields value Value.Distinct) (rounds : Nat) {members : Members}
    (hmembers : members.Distinct) : Yields (inlinePairs value rounds members) Members.Distinct := by
  induction rounds generalizing members with
  | zero => exact yields_failure
  | succ rounds ih =>
    rw [inlinePairs]
    refine yields_of_next fun keys => yields_of_next fun _ => yields_of_next fun _ => ?_
    refine h.bind fun item hitem => yields_of_next fun _ => ?_
    -- The pair is added to those in front of it.
    have hadd : Yields (ofOption (members.addValue keys item)) Members.Distinct :=
      yields_ofOption fun _ => Members.distinct_addValue hitem hmembers
    refine hadd.bind fun members hmembers => yields_of_next fun more => ?_
    split
    · exact ih hmembers
    · exact yields_of_next fun _ => yields_pure hmembers

/-- **A value that is read has no table with a key twice.** -/
theorem yields_value (depth : Nat) : Yields (Toml.value depth) Value.Distinct := by
  induction depth with
  | zero => exact yields_failure
  | succ depth ih =>
    rw [Toml.value]
    refine yields_of_next fun c => ?_
    split
    · exact yields_of_next fun _ => yields_pure (.string _)
    · exact yields_of_next fun _ => yields_pure (.string _)
    · refine yields_of_next fun _ => yields_of_next fun rounds => ?_
      exact (yields_arrayItems ih rounds).bind fun items hitems => yields_pure (.array hitems)
    · refine yields_of_next fun _ => yields_of_next fun _ => yields_of_next fun closed => ?_
      split
      · exact yields_pure (.table .nil (List.forall_mem_nil _))
      · refine yields_of_next fun rounds => ?_
        exact (yields_inlinePairs ih rounds Members.distinct_nil).bind fun members hmembers =>
          yields_pure hmembers.close
    · exact yields_scalar

/-! ### Documents -/

/-- Whether the value that a line gives has no table with a key twice. -/
def Statement.Distinct : Statement → Prop
  | .pair _ value => value.Distinct
  | .table _ | .item _ => True

private theorem yields_header : Yields header Statement.Distinct := by
  refine yields_of_next fun item => ?_
  split
  · exact yields_of_next fun _ => yields_of_next fun _ => yields_pure trivial
  · exact yields_of_next fun _ => yields_of_next fun _ => yields_pure trivial

private theorem yields_pair : Yields pair Statement.Distinct := by
  refine yields_of_next fun keys => yields_of_next fun _ => yields_of_next fun _ => ?_
  refine yields_of_next fun depth => ?_
  exact (yields_value depth).bind fun value hvalue => yields_pure hvalue

/-- A line is empty, or what it says has no table with a key twice. -/
private theorem yields_line :
    Yields line fun statement => ∀ found ∈ statement, found.Distinct := by
  have hempty : Yields (pure none) fun statement => ∀ found ∈ statement, Statement.Distinct found :=
    yields_pure nofun
  have hsome : ∀ {statement : Parser Statement}, Yields statement Statement.Distinct →
      Yields (some <$> statement) fun statement => ∀ found ∈ statement, found.Distinct :=
    fun h => .map fun text result rest hresult found hfound =>
      Option.some.inj hfound ▸ h text result rest hresult
  -- The end of the line is read behind each of them.
  have hend : ∀ statement : Option Statement, (∀ found ∈ statement, found.Distinct) →
      Yields (do lineTail; pure statement) fun statement => ∀ found ∈ statement, found.Distinct :=
    fun statement h => yields_of_next fun _ => yields_pure h
  refine yields_of_next fun _ => yields_of_next fun c => ?_
  dsimp only
  split
  · exact hempty.bind hend
  · exact hempty.bind hend
  · exact hempty.bind hend
  · exact hempty.bind hend
  · exact yields_of_next fun _ => (hsome yields_header).bind hend
  · exact (hsome yields_pair).bind hend

theorem yields_lines (rounds : Nat) :
    Yields (lines rounds) fun statements => ∀ statement ∈ statements, statement.Distinct := by
  induction rounds with
  | zero => exact yields_failure
  | succ rounds ih =>
    rw [lines]
    refine yields_of_next fun c => ?_
    split
    · exact yields_pure (List.forall_mem_nil _)
    · refine yields_line.bind fun statement hstatement => ih.bind fun statements hstatements => ?_
      refine yields_pure (List.forall_mem_append.mpr ⟨?_, hstatements⟩)
      simpa using hstatement

namespace Document

/-- **Lines keep keys distinct.** -/
theorem distinct_run {header : List String} {members result : Members} {statements : List Statement}
    (hstatements : ∀ statement ∈ statements, statement.Distinct) (h : members.Distinct)
    (hresult : run header members statements = some result) : result.Distinct := by
  fun_induction run header members statements generalizing result with
  | case1 => exact Option.some.inj hresult ▸ h
  | case2 header members keys value rest ih =>
    rw [List.forall_mem_cons] at hstatements
    obtain ⟨middle, hmiddle, hrest⟩ := Option.bind_eq_some_iff.mp hresult
    refine ih middle hstatements.2 ?_ hrest
    exact Members.distinct_within (Members.distinct_addValue hstatements.1) h hmiddle
  | case3 header members keys rest ih =>
    rw [List.forall_mem_cons] at hstatements
    obtain ⟨middle, hmiddle, hrest⟩ := Option.bind_eq_some_iff.mp hresult
    exact ih middle hstatements.2 (Members.distinct_declare h hmiddle) hrest
  | case4 header members keys rest ih =>
    rw [List.forall_mem_cons] at hstatements
    obtain ⟨middle, hmiddle, hrest⟩ := Option.bind_eq_some_iff.mp hresult
    exact ih middle hstatements.2 (Members.distinct_declareItem h hmiddle) hrest

/-- **The table that a text stands for has no key twice**, and neither has any table in it. -/
theorem distinct_of_parse? {text : List Char} {document : Table}
    (h : parse? text = some document) : (Value.table document).Distinct := by
  rw [parse?] at h
  obtain ⟨⟨statements, rest⟩, hlines, h⟩ := Option.bind_eq_some_iff.mp h
  obtain ⟨members, hrun, h⟩ := Option.bind_eq_some_iff.mp h
  obtain rfl := Option.some.inj h
  exact (distinct_run (yields_lines _ _ _ _ hlines) Members.distinct_nil hrun).close

end Document

end SourceOutline.Toml
