import SourceOutline.Proofs.Response.RoundTrip

/-!
# Only the members that are known count

What is read of a text depends on the members that the type knows: their order does not matter, nor
do the blanks between the parts of the text or scalars under other keys, and a member that may be
`null` may be left out where it is. This holds at every depth, of a report in a response and of the
entries in a report (`tolerates_of_fits`).

The source of an import is the exception: whether its member is `null` or missing is the difference
between two imports, which are written as two texts (`ImportEntry.distinguishes_of_unnamed`).
-/

namespace SourceOutline

open Json

/-- The value without its members for a key. -/
def Json.without (key : String) : Json → Json
  | object members => object (members.filter (·.1 != key))
  | other => other

namespace ImportEntry

/-- Whether an import is told from the one that is read where its source is missing: the text for
the one is read as the other, and no layout writes both alike. -/
structure Distinguishes (entry : ImportEntry) : Prop where
  decode : ∀ other text, Varies schema (entry.toJson.without "from") other →
    SpellsDocument other text → coding.decode text = .ok { entry with source := .none }
  ne : { entry with source := .none } ≠ entry
  encode : ∀ layout, coding.encode layout { entry with source := .none } ≠
    coding.encode layout entry

variable {entry : ImportEntry}

/-- Without its member for the source an import is written as one that has none. -/
theorem without_from_toJson (entry : ImportEntry) :
    entry.toJson.without "from" = toJson { entry with source := .none } := by
  obtain ⟨modules, source, line⟩ := entry
  cases source <;> rfl

/-- Values that are read back are written as different texts. -/
theorem encode_ne {other : ImportEntry} (h : entry.line ≤ maxWhole) (hother : other.line ≤ maxWhole)
    (hne : other ≠ entry) (layout : Layout) :
    coding.encode layout other ≠ coding.encode layout entry := by
  intro heq
  have hdecode := ((other.faithful hother).roundTrips (by decide) layout).1
  rw [heq, ((entry.faithful h).roundTrips (by decide) layout).1] at hdecode
  exact hne (Except.ok.inj hdecode).symm

theorem distinguishes_of_unnamed (h : entry.line ≤ maxWhole) (hsource : entry.source = .unnamed) :
    entry.Distinguishes := by
  have hne : { entry with source := .none } ≠ entry := by
    intro heq
    rw [← heq] at hsource
    cases hsource
  refine ⟨fun other text hother htext => ?_, hne, encode_ne h h hne⟩
  rw [without_from_toJson] at hother
  exact (faithful { entry with source := .none } h).tolerates (by decide) other text hother htext

end ImportEntry

/-- **Only the members that are known count**, for analyses, validations, reports and all kinds of
entries whose numbers have 64 bits, and one that may be `null` counts as that where it is missing.
An import is another one without its source. -/
theorem tolerates_of_fits :
    (∀ response : AnalysisResponse, response.Fits →
      AnalysisResponse.coding.Tolerates AnalysisResponse.schema response) ∧
    (∀ response : ValidationResponse, response.Fits →
      ValidationResponse.coding.Tolerates ValidationResponse.schema response) ∧
    (∀ report : Report, report.Fits → Report.coding.Tolerates Report.schema report) ∧
    (∀ entry : FunctionEntry, entry.line ≤ maxWhole →
      FunctionEntry.coding.Tolerates FunctionEntry.schema entry) ∧
    (∀ entry : ClassEntry, entry.line ≤ maxWhole →
      ClassEntry.coding.Tolerates ClassEntry.schema entry) ∧
    (∀ entry : LoopEntry, entry.line ≤ maxWhole →
      LoopEntry.coding.Tolerates LoopEntry.schema entry) ∧
    (∀ entry : ConditionalEntry, entry.line ≤ maxWhole →
      ConditionalEntry.coding.Tolerates ConditionalEntry.schema entry) ∧
    (∀ entry : AssignmentEntry, entry.line ≤ maxWhole →
      AssignmentEntry.coding.Tolerates AssignmentEntry.schema entry) ∧
    (∀ entry : ImportEntry, entry.line ≤ maxWhole →
      ImportEntry.coding.Tolerates ImportEntry.schema entry) ∧
    ∀ entry : ImportEntry, entry.line ≤ maxWhole → entry.source = .unnamed →
      entry.Distinguishes :=
  ⟨fun _ h => (AnalysisResponse.faithful h).tolerates (by decide),
    fun _ h => (ValidationResponse.faithful h).tolerates (by decide),
    fun _ h => (Report.faithful h).tolerates (by decide),
    fun entry h => (entry.faithful h).tolerates (by decide),
    fun entry h => (entry.faithful h).tolerates (by decide),
    fun entry h => (entry.faithful h).tolerates (by decide),
    fun entry h => (entry.faithful h).tolerates (by decide),
    fun entry h => (entry.faithful h).tolerates (by decide),
    fun entry h => (entry.faithful h).tolerates (by decide),
    fun _ => ImportEntry.distinguishes_of_unnamed⟩

/-- An error without its column, with a code between its other members, which stand the other way
round. -/
private def reorderedError : Json :=
  .object [("line", .ofNat 2), ("code", .ofNat 7), ("message", .string "x")]

/-- A validation with such an error, and with a note in front. -/
private def reordered : Json :=
  .object [("note", .null), ("error", reorderedError), ("valid", .bool false)]

private theorem varies_reordered :
    Varies ValidationResponse.schema (ValidationResponse.toJson ⟨false, some ⟨"x", some 2, none⟩⟩)
      reordered := by
  have herror : Varies ValidationError.schema (ValidationError.toJson ⟨"x", some 2, none⟩)
      reorderedError := by
    refine varies_record (List.forall_mem_cons.mpr ⟨.value (.scalar (.string _)),
      List.forall_mem_cons.mpr ⟨.value (.scalar (.natural (by decide))),
        List.forall_mem_singleton.mpr .omitted⟩⟩) ?_
    exact List.forall_mem_cons.mpr ⟨.inl (by decide), List.forall_mem_cons.mpr
      ⟨.inr (.natural (by decide)), List.forall_mem_singleton.mpr (.inl (by decide))⟩⟩
  refine varies_record (List.forall_mem_cons.mpr ⟨.value (.scalar (.bool _)),
    List.forall_mem_singleton.mpr (.value herror)⟩) ?_
  exact List.forall_mem_cons.mpr ⟨.inr .null, List.forall_mem_cons.mpr
    ⟨.inl (by decide), List.forall_mem_singleton.mpr (.inl (by decide))⟩⟩

private theorem spells_reordered :
    SpellsDocument reordered (render (.pretty 1) reordered).toList := by
  have herror : Regular 1 reorderedError :=
    .object (by decide) (.members_cons (.natural (by decide))
      (.members_cons (.natural (by decide)) (.members_cons (.string _) .members_nil)))
  have hregular : Regular 2 reordered :=
    .object (by decide) (.members_cons .null
      (.members_cons herror (.members_cons (.bool _) .members_nil)))
  exact spellsDocument_render hregular (.pretty 1)

/-- The validation is read from the lines with its reordered members, and a report, an error and
entries of all kinds are read likewise; an import is not. -/
theorem tolerates_of_fits_reordered :
    ValidationResponse.coding.decode (render (.pretty 1) reordered).toList =
      .ok ⟨false, some ⟨"x", some 2, none⟩⟩ ∧
    AnalysisResponse.coding.Tolerates AnalysisResponse.schema (.failure false "x" (some 2) none) ∧
    Report.coding.Tolerates Report.schema { loops := [⟨.for_, maxWhole⟩] } ∧
    FunctionEntry.coding.Tolerates FunctionEntry.schema ⟨"f", 1, ["a", "b"]⟩ ∧
    ClassEntry.coding.Tolerates ClassEntry.schema ⟨"C", 1⟩ ∧
    LoopEntry.coding.Tolerates LoopEntry.schema ⟨.while_, 1⟩ ∧
    ConditionalEntry.coding.Tolerates ConditionalEntry.schema ⟨1⟩ ∧
    AssignmentEntry.coding.Tolerates AssignmentEntry.schema ⟨["a"], 1⟩ ∧
    ImportEntry.coding.Tolerates ImportEntry.schema ⟨["a"], .module "m", 1⟩ ∧
    ImportEntry.Distinguishes ⟨["a"], .unnamed, 1⟩ := by
  obtain ⟨hanalysis, hvalidation, hreport, hfunction, hclass, hloop, hconditional, hassignment,
    himport, hunnamed⟩ := tolerates_of_fits
  refine ⟨hvalidation _ ?_ _ _ varies_reordered spells_reordered,
    hanalysis _ ⟨by decide, by decide⟩, hreport _ ?_, hfunction _ (by decide),
    hclass _ (by decide), hloop _ (by decide),
    hconditional _ (by decide), hassignment _ (by decide), himport _ (by decide),
    hunnamed _ (by decide) rfl⟩
  · intro error herror
    cases herror
    exact ⟨by decide, by decide⟩
  · intro category
    cases category <;> decide

end SourceOutline
