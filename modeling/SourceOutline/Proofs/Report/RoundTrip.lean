import SourceOutline.Proofs.Json.Faithful
import SourceOutline.Report.Encoding

/-!
# Reports are read back as they were written

Each kind of entry has a schema and three facts: its plain form is regular, its shape admits that
form for the schema, and the form gives the entry back. The only condition is that lines are numbers
of 64 bits. A report is a record of lists of entries, so the same three facts hold of it
(`Report.faithful`).

The source of an import is told by the member `from`: whether it is there, and whether it is `null`.
-/

namespace SourceOutline

open Json

/-! ### Lists -/

namespace Json

/-- A list is taken from the array of what its items were written as. -/
theorem listOf?_map {α β : Type} {write : β → Json} {read? : Json → Option α} {value : β → α}
    {items : List β} (h : ∀ item ∈ items, read? (write item) = some (value item)) :
    (Json.array (items.map write)).listOf? read? = some (items.map value) := by
  rw [listOf?]
  induction items with
  | nil => rfl
  | cons item items ih =>
    rw [List.map_cons, List.mapM_cons, h item List.mem_cons_self,
      ih fun other hother => h other (List.mem_cons_of_mem _ hother)]
    rfl

theorem listOf?_ofStrings (texts : List String) :
    (ofStrings texts).listOf? string? = some texts := by
  have h : (ofStrings texts).listOf? string? = some (texts.map id) := listOf?_map fun _ _ => rfl
  rwa [List.map_id] at h

theorem regular_ofStrings {levels : Nat} (texts : List String) :
    Regular (levels + 1) (ofStrings texts) := by
  refine .array fun item hitem => ?_
  obtain ⟨text, -, rfl⟩ := List.mem_map.mp hitem
  exact .string text

theorem admits_ofStrings {levels : Nat} (texts : List String) :
    (Reader.list .string).Admits (levels + 1) (.list .scalar) (ofStrings texts) := by
  refine Reader.admits_list fun item hitem => ?_
  obtain ⟨text, -, rfl⟩ := List.mem_map.mp hitem
  exact Reader.admits_string text

end Json

/-! ### Entries -/

namespace FunctionEntry

/-- What is known of how a function is written. -/
def schema : Schema :=
  .record [("name", .required, .scalar), ("lineno", .required, .scalar),
    ("args", .required, .list .scalar)]

variable (entry : FunctionEntry)

theorem regular_toJson (h : entry.line ≤ maxWhole) : Regular 2 entry.toJson :=
  .object (by simp) (.members_cons (.string _) (.members_cons (.natural h)
    (.members_cons (regular_ofStrings _) .members_nil)))

theorem admits_toJson (h : entry.line ≤ maxWhole) : shape.Admits 2 schema entry.toJson :=
  Reader.admits_record _ (.present rfl (Reader.admits_string _)
    (.present rfl (Reader.admits_natural h) (.present rfl (admits_ofStrings _) .nil))) (by decide)

theorem ofJson?_toJson : ofJson? entry.toJson = some entry := by
  simp [ofJson?, toJson, member?, string?, nat?, ofNat, listOf?_ofStrings]

theorem faithful (h : entry.line ≤ maxWhole) : coding.Faithful schema 2 entry :=
  ⟨entry.regular_toJson h, entry.admits_toJson h, entry.ofJson?_toJson⟩

end FunctionEntry

namespace ClassEntry

/-- What is known of how a class is written. -/
def schema : Schema :=
  .record [("name", .required, .scalar), ("lineno", .required, .scalar)]

variable (entry : ClassEntry)

theorem regular_toJson (h : entry.line ≤ maxWhole) : Regular 2 entry.toJson :=
  .object (by simp) (.members_cons (.string _) (.members_cons (.natural h) .members_nil))

theorem admits_toJson (h : entry.line ≤ maxWhole) : shape.Admits 2 schema entry.toJson :=
  Reader.admits_record _ (.present rfl (Reader.admits_string _)
    (.present rfl (Reader.admits_natural h) .nil)) (by decide)

theorem ofJson?_toJson : ofJson? entry.toJson = some entry := rfl

theorem faithful (h : entry.line ≤ maxWhole) : coding.Faithful schema 2 entry :=
  ⟨entry.regular_toJson h, entry.admits_toJson h, entry.ofJson?_toJson⟩

end ClassEntry

namespace LoopEntry

/-- What is known of how a loop is written. -/
def schema : Schema :=
  .record [("type", .required, .scalar), ("lineno", .required, .scalar)]

variable (entry : LoopEntry)

theorem regular_toJson (h : entry.line ≤ maxWhole) : Regular 2 entry.toJson :=
  .object (by simp) (.members_cons (.string _) (.members_cons (.natural h) .members_nil))

theorem admits_toJson (h : entry.line ≤ maxWhole) : shape.Admits 2 schema entry.toJson := by
  have hword : ["for", "while"].contains entry.kind.word = true := by
    cases entry.kind <;> decide
  exact Reader.admits_record _ (.present rfl (Reader.admits_word hword)
    (.present rfl (Reader.admits_natural h) .nil)) (by decide)

theorem ofJson?_toJson : ofJson? entry.toJson = some entry := by
  obtain ⟨kind, line⟩ := entry
  cases kind <;> rfl

theorem faithful (h : entry.line ≤ maxWhole) : coding.Faithful schema 2 entry :=
  ⟨entry.regular_toJson h, entry.admits_toJson h, entry.ofJson?_toJson⟩

end LoopEntry

namespace ConditionalEntry

/-- What is known of how a condition is written. -/
def schema : Schema :=
  .record [("lineno", .required, .scalar)]

variable (entry : ConditionalEntry)

theorem regular_toJson (h : entry.line ≤ maxWhole) : Regular 2 entry.toJson :=
  .object (by simp) (.members_cons (.natural h) .members_nil)

theorem admits_toJson (h : entry.line ≤ maxWhole) : shape.Admits 2 schema entry.toJson :=
  Reader.admits_record _ (.present rfl (Reader.admits_natural h) .nil) (by decide)

theorem ofJson?_toJson : ofJson? entry.toJson = some entry := rfl

theorem faithful (h : entry.line ≤ maxWhole) : coding.Faithful schema 2 entry :=
  ⟨entry.regular_toJson h, entry.admits_toJson h, entry.ofJson?_toJson⟩

end ConditionalEntry

namespace AssignmentEntry

/-- What is known of how an assignment is written. -/
def schema : Schema :=
  .record [("targets", .required, .list .scalar), ("lineno", .required, .scalar)]

variable (entry : AssignmentEntry)

theorem regular_toJson (h : entry.line ≤ maxWhole) : Regular 2 entry.toJson :=
  .object (by simp) (.members_cons (regular_ofStrings _) (.members_cons (.natural h) .members_nil))

theorem admits_toJson (h : entry.line ≤ maxWhole) : shape.Admits 2 schema entry.toJson :=
  Reader.admits_record _ (.present rfl (admits_ofStrings _)
    (.present rfl (Reader.admits_natural h) .nil)) (by decide)

theorem ofJson?_toJson : ofJson? entry.toJson = some entry := by
  simp [ofJson?, toJson, member?, nat?, ofNat, listOf?_ofStrings]

theorem faithful (h : entry.line ≤ maxWhole) : coding.Faithful schema 2 entry :=
  ⟨entry.regular_toJson h, entry.admits_toJson h, entry.ofJson?_toJson⟩

end AssignmentEntry

namespace ImportEntry

/-- What is known of how an import is written. That there is no source says something else than that
it is `null`. -/
def schema : Schema :=
  .record [("modules", .required, .list .scalar), ("from", .optional, .scalar),
    ("lineno", .required, .scalar)]

variable (entry : ImportEntry)

theorem regular_toJson (h : entry.line ≤ maxWhole) : Regular 2 entry.toJson := by
  obtain ⟨modules, source, line⟩ := entry
  refine .object ?_ (.members_cons (regular_ofStrings _) ?_)
  · cases source <;> simp [ImportSource.members]
  · cases source with
    | none => exact .members_cons (.natural h) .members_nil
    | unnamed => exact .members_cons .null (.members_cons (.natural h) .members_nil)
    | module name => exact .members_cons (.string name) (.members_cons (.natural h) .members_nil)

theorem admits_toJson (h : entry.line ≤ maxWhole) : shape.Admits 2 schema entry.toJson := by
  obtain ⟨modules, source, line⟩ := entry
  refine Reader.admits_record _ (.present rfl (admits_ofStrings _) ?_) (by decide)
  cases source with
  | none => exact .absent rfl rfl (.present rfl (Reader.admits_natural h) .nil)
  | unnamed =>
    exact .present rfl Reader.admits_option_null (.present rfl (Reader.admits_natural h) .nil)
  | module name =>
    exact .present rfl (Reader.admits_option (Reader.admits_string name) nofun)
      (.present rfl (Reader.admits_natural h) .nil)

theorem ofJson?_toJson : ofJson? entry.toJson = some entry := by
  obtain ⟨modules, source, line⟩ := entry
  cases source <;>
    simp [ofJson?, toJson, ImportSource.members, ImportSource.ofMember?, member?, nat?, ofNat,
      listOf?_ofStrings]

/-- **An import is read back**, whatever is known of its source. -/
theorem faithful (h : entry.line ≤ maxWhole) : coding.Faithful schema 2 entry :=
  ⟨entry.regular_toJson h, entry.admits_toJson h, entry.ofJson?_toJson⟩

end ImportEntry

/-! ### Entries of all kinds -/

/-- What is known of how the entries of a category are written. -/
def Category.schema : Category → Schema
  | functions => FunctionEntry.schema
  | classes => ClassEntry.schema
  | loops => LoopEntry.schema
  | conditionals => ConditionalEntry.schema
  | assignments => AssignmentEntry.schema
  | imports => ImportEntry.schema
  | comments => FunctionEntry.schema

namespace Entry

/-- The line of an entry. -/
def line : Entry → Nat
  | function entry => entry.line
  | classDef entry => entry.line
  | loop entry => entry.line
  | conditional entry => entry.line
  | assignment entry => entry.line
  | importing entry => entry.line

theorem regular_toJson {entry : Entry} (h : entry.line ≤ maxWhole) : Regular 2 entry.toJson := by
  cases entry with
  | function entry => exact entry.regular_toJson h
  | classDef entry => exact entry.regular_toJson h
  | loop entry => exact entry.regular_toJson h
  | conditional entry => exact entry.regular_toJson h
  | assignment entry => exact entry.regular_toJson h
  | importing entry => exact entry.regular_toJson h

/-- The shape of a category admits the entries that belong to it. -/
theorem admits_toJson {category : Category} {entry : Entry} (hfits : entry.fits category = true)
    (h : entry.line ≤ maxWhole) : category.shape.Admits 2 category.schema entry.toJson := by
  cases entry with
  | function entry =>
    cases category with
    | functions | comments => exact entry.admits_toJson h
    | _ => exact absurd hfits Bool.false_ne_true
  | classDef entry =>
    cases category with
    | classes => exact entry.admits_toJson h
    | _ => exact absurd hfits Bool.false_ne_true
  | loop entry =>
    cases category with
    | loops => exact entry.admits_toJson h
    | _ => exact absurd hfits Bool.false_ne_true
  | conditional entry =>
    cases category with
    | conditionals => exact entry.admits_toJson h
    | _ => exact absurd hfits Bool.false_ne_true
  | assignment entry =>
    cases category with
    | assignments => exact entry.admits_toJson h
    | _ => exact absurd hfits Bool.false_ne_true
  | importing entry =>
    cases category with
    | imports => exact entry.admits_toJson h
    | _ => exact absurd hfits Bool.false_ne_true

end Entry

/-! ### Whole reports -/

namespace Report

variable {report : Report}

/-- The entries of a report belong where they are. -/
theorem fits_of_mem_entries {category : Category} {entry : Entry}
    (h : entry ∈ report.entries category) : entry.fits category = true := by
  cases category <;>
    · obtain ⟨_, -, rfl⟩ := List.mem_map.mp h
      rfl

/-- The members of a report: a list for each category. -/
def fields : List (String × Presence × Schema) :=
  Category.all.map fun category => (category.key, .required, .list category.schema)

/-- What is known of how a report is written. -/
def schema : Schema :=
  .record fields

theorem lookup_fields (category : Category) :
    fields.lookup category.key = some (.required, .list category.schema) := by
  cases category <;> rfl

/-- Whether all lines in a report are numbers of 64 bits. -/
def Fits (report : Report) : Prop :=
  ∀ category, ∀ entry ∈ report.entries category, entry.line ≤ maxWhole

theorem regular_toJson (h : report.Fits) : Regular 4 report.toJson := by
  refine .object (by simp [Category.all, Category.key]) fun member hmember => ?_
  obtain ⟨category, -, rfl⟩ := List.mem_map.mp hmember
  refine .array fun item hitem => ?_
  obtain ⟨entry, hentry, rfl⟩ := List.mem_map.mp hitem
  exact Entry.regular_toJson (h category entry hentry)

theorem admits_toJson (h : report.Fits) : shape.Admits 4 schema report.toJson := by
  have hsuits : ∀ categories : List Category, Suits 3 fields
      (categories.map fun category => .required category.key (.list category.shape))
      (categories.map fun category =>
        (category.key, .array ((report.entries category).map Entry.toJson))) := by
    intro categories
    induction categories with
    | nil => exact .nil
    | cons category categories ih =>
      refine .present (lookup_fields category) (Reader.admits_list fun item hitem => ?_) ih
      obtain ⟨entry, hentry, rfl⟩ := List.mem_map.mp hitem
      exact Entry.admits_toJson (fits_of_mem_entries hentry) (h category entry hentry)
  exact Reader.admits_record _ (hsuits Category.all) (by decide)

/-- The entries of one kind are taken from what they were written as. -/
private theorem listOf?_entries {α : Type} (wrap : α → Entry) {read? : Json → Option α}
    (h : ∀ entry, read? (wrap entry).toJson = some entry) (entries : List α) :
    (Json.array (entries.map (Entry.toJson ∘ wrap))).listOf? read? = some entries := by
  have hlist : (Json.array (entries.map (Entry.toJson ∘ wrap))).listOf? read? =
      some (entries.map id) := listOf?_map fun entry _ => h entry
  rwa [List.map_id] at hlist

theorem ofJson?_toJson : ofJson? report.toJson = some report := by
  have hfunctions := listOf?_entries .function FunctionEntry.ofJson?_toJson
  have hclasses := listOf?_entries .classDef ClassEntry.ofJson?_toJson
  have hloops := listOf?_entries .loop LoopEntry.ofJson?_toJson
  have hconditionals := listOf?_entries .conditional ConditionalEntry.ofJson?_toJson
  have hassignments := listOf?_entries .assignment AssignmentEntry.ofJson?_toJson
  have himports := listOf?_entries .importing ImportEntry.ofJson?_toJson
  simp [ofJson?, toJson, Category.all, Category.key, entries, member?, hfunctions, hclasses, hloops,
    hconditionals, hassignments, himports]

/-- **A report is read back.** -/
theorem faithful (h : report.Fits) : coding.Faithful schema 4 report :=
  ⟨regular_toJson h, admits_toJson h, ofJson?_toJson⟩

end Report

end SourceOutline
