import Mathlib
import SourceOutline.Proofs.Config.Settings

/-!
# The order of settings

A document says what it says in whatever order its sections come, and the keys in these
(`Table.Reordered`): it is acceptable or not, and the same configurations follow it.

**Main result** (`Config.ofText_follows`): a text makes a configuration exactly if its document is
acceptable, this has the values that the document gives and its defaults elsewhere, and texts whose
documents differ in the order of sections and keys make the same configuration, or none.
-/

namespace SourceOutline

open Toml

/-! ### The order of sections and keys -/

namespace Toml.Table

/-- Documents that differ in the order of their sections, and of the keys in these. -/
inductive Reordered : Table → Table → Prop
  | sections {document document' : Table} (h : document.Perm document') :
    Reordered document document'
  | keys (front behind : Table) (place : String) {members members' : Table}
    (h : members.Perm members') :
    Reordered (front ++ (place, .table members) :: behind)
      (front ++ (place, .table members') :: behind)
  | trans {first second third : Table} (h : Reordered first second) (h' : Reordered second third) :
    Reordered first third

variable {document document' members members' : Table}

/-- What a section with fewer members gives, one with more gives too. -/
private theorem gives_of_subset {front behind : Table} {other place key : String} {value : Value}
    (h : members ⊆ members')
    (hgives : Gives (front ++ (other, .table members) :: behind) place key value) :
    Gives (front ++ (other, .table members') :: behind) place key value := by
  obtain ⟨found, hfound, hvalue⟩ := hgives
  rcases List.mem_append.mp hfound with hfound | hfound
  · exact ⟨found, List.mem_append_left _ hfound, hvalue⟩
  rcases List.mem_cons.mp hfound with heq | hfound
  · cases heq
    exact ⟨members', List.mem_append_right _ List.mem_cons_self, h hvalue⟩
  · exact ⟨found, List.mem_append_right _ (List.mem_cons_of_mem _ hfound), hvalue⟩

namespace Reordered

theorem gives_iff (h : document.Reordered document') {place key : String} {value : Value} :
    document.Gives place key value ↔ document'.Gives place key value := by
  induction h with
  | sections h => simp only [Gives, h.mem_iff]
  | keys front behind other h => exact ⟨gives_of_subset h.subset, gives_of_subset h.symm.subset⟩
  | trans _ _ ih ih' => exact ih.trans ih'

theorem map_fst (h : document.Reordered document') :
    (document.map (·.1)).Perm (document'.map (·.1)) := by
  induction h with
  | sections h => exact h.map _
  | keys front behind other h => rw [List.map_append, List.map_append, List.map_cons, List.map_cons]
  | trans _ _ ih ih' => exact ih.trans ih'

theorem hasTables (h : document.Reordered document') (htables : document.HasTables) :
    document'.HasTables := by
  induction h with
  | sections h =>
    intro place hplace value hvalue
    exact htables place hplace value (h.mem_iff.mpr hvalue)
  | @keys front behind other members members' h =>
    intro place hplace value hvalue
    rcases List.mem_append.mp hvalue with hvalue | hvalue
    · exact htables place hplace value (List.mem_append_left _ hvalue)
    rcases List.mem_cons.mp hvalue with heq | hvalue
    · cases heq
      exact ⟨members', rfl⟩
    · exact htables place hplace value
        (List.mem_append_right _ (List.mem_cons_of_mem _ hvalue))
  | trans _ _ ih ih' => exact ih' (ih htables)

theorem symm (h : document.Reordered document') : document'.Reordered document := by
  induction h with
  | sections h => exact .sections h.symm
  | keys front behind place h => exact .keys front behind place h.symm
  | trans _ _ ih ih' => exact .trans ih' ih

private theorem acceptable (h : document.Reordered document')
    (hacceptable : document.Acceptable) : document'.Acceptable where
  places member hmember := by
    have hplace := h.map_fst.mem_iff.mpr (List.mem_map_of_mem hmember)
    obtain ⟨other, hother, heq⟩ := List.mem_map.mp hplace
    exact heq ▸ hacceptable.places other hother
  keys place key value hvalue := hacceptable.keys place key value (h.gives_iff.mpr hvalue)
  values setting value hvalue := hacceptable.values setting value (h.gives_iff.mpr hvalue)

theorem acceptable_iff (h : document.Reordered document') :
    document.Acceptable ↔ document'.Acceptable :=
  ⟨h.acceptable, h.symm.acceptable⟩

theorem follows_iff (h : document.Reordered document') {config : Config} :
    config.Follows document ↔ config.Follows document' := by
  simp only [Config.follows_iff, h.gives_iff]

end Reordered

end Toml.Table

/-! ### Texts -/

namespace Config

variable {text : List Char} {document : Table} {config : Config}

private theorem ofText_eq_ok_iff (hparse : Document.parse? text = some document) :
    ofText text = .ok config ↔ ofTable? document = some config := by
  rw [ofText, hparse, Option.bind_some]
  cases ofTable? document <;> simp [throw, throwThe, MonadExceptOf.throw, pure, Except.pure]

/-- **A text makes a configuration exactly if its document is acceptable**, and then this has the
values that the document gives and its defaults elsewhere. In which order the sections and keys come
does not matter. -/
theorem ofText_follows (hparse : Document.parse? text = some document)
    (htables : document.HasTables) :
    ((∃ config, ofText text = .ok config) ↔ document.Acceptable) ∧
    (∀ config, ofText text = .ok config → config.Follows document) ∧
    ∀ text' document', Document.parse? text' = some document' → document.Reordered document' →
      ofText text' = ofText text := by
  have h := Document.distinct_of_parse? hparse
  simp only [ofText_eq_ok_iff hparse]
  refine ⟨exists_ofTable?_iff h htables,
    fun config hconfig => ((ofTable?_eq_some_iff h htables).mp hconfig).2,
    fun text' document' hparse' hreordered => ?_⟩
  have h' := Document.distinct_of_parse? hparse'
  -- Both make the same configurations, if any.
  have hsame : ofTable? document' = ofTable? document := by
    ext config
    rw [ofTable?_eq_some_iff h htables, ofTable?_eq_some_iff h' (hreordered.hasTables htables),
      hreordered.acceptable_iff, hreordered.follows_iff]
  rw [ofText, ofText, hparse, hparse', Option.bind_some, Option.bind_some, hsame]

/-- Some of the settings, below headers. -/
private def headed : List Char :=
  "[server]\nport = 9000\n[output]\nindent = 2\npretty = false\n".toList

/-- The same settings without headers, in another order. -/
private def unheaded : List Char :=
  "output = \x7bpretty = false, indent = 2\x7d\nserver.port = 9000\n".toList

private def headedDocument : Table :=
  [("server", .table [("port", .integer 9000)]),
    ("output", .table [("indent", .integer 2), ("pretty", .boolean false)])]

private def unheadedDocument : Table :=
  [("output", .table [("pretty", .boolean false), ("indent", .integer 2)]),
    ("server", .table [("port", .integer 9000)])]

private theorem parse?_headed : Document.parse? headed = some headedDocument := by
  cbv

private theorem parse?_unheaded : Document.parse? unheaded = some unheadedDocument := by
  cbv

/-- The keys of the output are swapped, and then the sections. -/
private theorem reordered_headedDocument : headedDocument.Reordered unheadedDocument :=
  .trans (.keys [_] [] "output" (.swap _ _ _)) (.sections (.swap _ _ _))

/-- Both texts make the configuration that follows the document of the first. -/
theorem ofText_follows_headed :
    ∃ config, ofText headed = .ok config ∧ headedDocument.Acceptable ∧
      config.Follows headedDocument ∧ ofText unheaded = .ok config := by
  have htables : headedDocument.HasTables := by
    simp [headedDocument, Table.HasTables]
  have hconfig : ofText headed = .ok ⟨⟨false, 2⟩, {}, ⟨9000⟩⟩ := by
    rw [ofText, parse?_headed]
    rfl
  obtain ⟨hiff, hfollows, hsame⟩ := ofText_follows parse?_headed htables
  have hunheaded := hsame _ _ parse?_unheaded reordered_headedDocument
  exact ⟨_, hconfig, hiff.mp ⟨_, hconfig⟩, hfollows _ hconfig, hunheaded.trans hconfig⟩

end Config

end SourceOutline
