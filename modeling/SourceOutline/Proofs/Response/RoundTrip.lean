import SourceOutline.Proofs.Report.RoundTrip
import SourceOutline.Response.Encoding

/-!
# Responses are read back as they were written

A response with an error has members that may be `null`, and the response to a question for a report
has two shapes without a mark. Its text is taken for the one with a report first; an error has no
member `ast`, so it is never taken for a report.

**Main result** (`roundTrips_of_fits`): analyses, validations, reports and imports whose numbers
have 64 bits are read back from all their layouts, in the order of their members and with all keys
sorted.
-/

namespace SourceOutline

open Json

/-! ### Numbers that may be missing -/

namespace Json

variable {levels : Nat} {number : Option Nat}

theorem regular_ofOption_ofNat (h : ∀ n ∈ number, n ≤ maxWhole) :
    Regular levels (ofOption ofNat number) := by
  cases number with
  | none => exact .null
  | some n => exact .natural (h n rfl)

theorem admits_ofOption_ofNat (h : ∀ n ∈ number, n ≤ maxWhole) :
    (Reader.option .natural).Admits levels .scalar (ofOption ofNat number) := by
  cases number with
  | none => exact Reader.admits_option_null
  | some n => exact Reader.admits_option (Reader.admits_natural (h n rfl)) nofun

theorem optionOf?_ofOption_ofNat : (ofOption ofNat number).optionOf? nat? = some number := by
  cases number <;> rfl

end Json

/-! ### Analyses -/

namespace AnalysisResponse

/-- Whether all numbers in a response have 64 bits. -/
def Fits : AnalysisResponse → Prop
  | success _ report => report.Fits
  | failure _ _ line column => (∀ n ∈ line, n ≤ maxWhole) ∧ ∀ n ∈ column, n ≤ maxWhole

/-- The members of a response, those of a report and those of an error. -/
def fields : List (String × Presence × Schema) :=
  [("success", .required, .scalar), ("ast", .required, Report.schema),
    ("error", .required, .scalar), ("lineno", .nullable, .scalar),
    ("col_offset", .nullable, .scalar)]

/-- What is known of how a response is written. -/
def schema : Schema :=
  .record fields

variable {response : AnalysisResponse}

theorem regular_toJson (h : response.Fits) : Regular 5 response.toJson := by
  cases response with
  | success flag report =>
    exact .object (by simp) (.members_cons (.bool flag)
      (.members_cons (Report.regular_toJson h) .members_nil))
  | failure flag message line column =>
    exact .object (by simp) (.members_cons (.bool flag) (.members_cons (.string message)
      (.members_cons (regular_ofOption_ofNat h.1)
        (.members_cons (regular_ofOption_ofNat h.2) .members_nil))))

/-- The members of a response with a report. -/
theorem suits_success (flag : Bool) {report : Report} (h : report.Fits) :
    Suits 4 fields [.required "success" .boolean, .required "ast" Report.shape]
      [("success", .bool flag), ("ast", report.toJson)] :=
  .present rfl (Reader.admits_boolean flag) (.present rfl (Report.admits_toJson h) .nil)

/-- The members of a response with an error. -/
theorem suits_failure (flag : Bool) (message : String) {line column : Option Nat}
    (hline : ∀ n ∈ line, n ≤ maxWhole) (hcolumn : ∀ n ∈ column, n ≤ maxWhole) :
    Suits 4 fields [.required "success" .boolean, .required "error" .string,
        .nullable "lineno" .natural, .nullable "col_offset" .natural]
      [("success", .bool flag), ("error", .string message), ("lineno", ofOption ofNat line),
        ("col_offset", ofOption ofNat column)] :=
  .present rfl (Reader.admits_boolean flag) (.present rfl (Reader.admits_string message)
    (.present rfl (admits_ofOption_ofNat hline)
      (.present rfl (admits_ofOption_ofNat hcolumn) .nil)))

/-- A response is read as the shape that it was written in. -/
theorem admits_toJson (h : response.Fits) : shape.Admits 5 schema response.toJson := by
  cases response with
  | success flag report =>
    have hsuccess := Reader.admits_object "variant AnalysisResponse::Success"
      (suits_success flag h) (by decide)
    refine ⟨hsuccess.conforms, fun other hother => ?_⟩
    have hwithin : Within 5 other := hother.within (regular_toJson h).within
    refine Reader.reads_oneOf hwithin ?_
    exact Reader.firstOf_cons_of_reads (hsuccess.reads other hother) (by decide)
  | failure flag message line column =>
    have hfailure := Reader.admits_object "variant AnalysisResponse::Failure"
      (suits_failure flag message h.1 h.2) (by decide)
    refine ⟨hfailure.conforms, fun other hother => ?_⟩
    have hwithin : Within 5 other := hother.within (regular_toJson h).within
    refine Reader.reads_oneOf hwithin ?_
    rw [Reader.firstOf_cons_of_ne_ok]
    · exact Reader.firstOf_cons_of_reads (hfailure.reads other hother) (by decide)
    · -- An error has no member `ast`, and nothing that says the same has.
      cases hother with
      | record hknown _ =>
        have hast := hknown "ast" _ _ rfl
        rw [given_eq_nil (by simp)] at hast
        intro depth tree htree plain
        exact Reader.object_ne_ok (.required "ast" Report.shape) (.tail _ (.head _)) rfl hast.eq_nil
          htree plain

theorem ofJson?_toJson : ofJson? response.toJson = some response := by
  cases response with
  | success flag report =>
    simp [ofJson?, successOfJson?, toJson, member?, bool?, Report.ofJson?_toJson]
  | failure flag message line column =>
    simp [ofJson?, successOfJson?, failureOfJson?, toJson, member?, bool?, string?,
      optionOf?_ofOption_ofNat]

/-- **An analysis is read back.** -/
theorem faithful (h : response.Fits) : coding.Faithful schema 5 response :=
  ⟨regular_toJson h, admits_toJson h, ofJson?_toJson⟩

end AnalysisResponse

/-! ### Validations -/

namespace ValidationError

/-- Whether all numbers in an error have 64 bits. -/
def Fits (error : ValidationError) : Prop :=
  (∀ n ∈ error.line, n ≤ maxWhole) ∧ ∀ n ∈ error.column, n ≤ maxWhole

/-- What is known of how an error is written. -/
def schema : Schema :=
  .record [("message", .required, .scalar), ("line", .nullable, .scalar),
    ("offset", .nullable, .scalar)]

variable {error : ValidationError}

theorem regular_toJson (h : error.Fits) : Regular 1 error.toJson :=
  .object (by simp) (.members_cons (.string _) (.members_cons (regular_ofOption_ofNat h.1)
    (.members_cons (regular_ofOption_ofNat h.2) .members_nil)))

theorem admits_toJson (h : error.Fits) : shape.Admits 1 schema error.toJson :=
  Reader.admits_record _ (.present rfl (Reader.admits_string _)
    (.present rfl (admits_ofOption_ofNat h.1) (.present rfl (admits_ofOption_ofNat h.2) .nil)))
    (by decide)

theorem ofJson?_toJson : ofJson? error.toJson = some error := by
  simp [ofJson?, toJson, member?, string?, optionOf?_ofOption_ofNat]

end ValidationError

namespace ValidationResponse

/-- Whether all numbers in a response have 64 bits. -/
def Fits (response : ValidationResponse) : Prop :=
  ∀ error ∈ response.error, error.Fits

/-- What is known of how a response is written. -/
def schema : Schema :=
  .record [("valid", .required, .scalar), ("error", .nullable, ValidationError.schema)]

variable {response : ValidationResponse}

theorem regular_toJson (h : response.Fits) : Regular 2 response.toJson := by
  refine .object (by simp) (.members_cons (.bool _) (.members_cons ?_ .members_nil))
  cases herror : response.error with
  | none => exact .null
  | some error => exact ValidationError.regular_toJson (h error herror)

theorem admits_toJson (h : response.Fits) : shape.Admits 2 schema response.toJson := by
  refine Reader.admits_record _ (.present rfl (Reader.admits_boolean _) (.present rfl ?_ .nil))
    (by decide)
  cases herror : response.error with
  | none => exact Reader.admits_option_null
  | some error =>
    exact Reader.admits_option (ValidationError.admits_toJson (h error herror)) nofun

theorem ofJson?_toJson : ofJson? response.toJson = some response := by
  obtain ⟨valid, error⟩ := response
  have herror : (ofOption ValidationError.toJson error).optionOf? ValidationError.ofJson? =
      some error := by
    cases error with
    | none => rfl
    | some error =>
      rw [ofOption, optionOf?, ValidationError.ofJson?_toJson]
      · rfl
      · nofun
  simp [ofJson?, toJson, member?, bool?, herror]

/-- **A validation is read back.** -/
theorem faithful (h : response.Fits) : coding.Faithful schema 2 response :=
  ⟨regular_toJson h, admits_toJson h, ofJson?_toJson⟩

end ValidationResponse

/-! ### All of them -/

/-- **Analyses, validations, reports and imports are read back from all their layouts.** Whichever
of its two shapes an analysis has is the one that is read, and so is what an import says of its
source: nothing, `null` or a name. -/
theorem roundTrips_of_fits :
    (∀ response : AnalysisResponse, response.Fits →
      AnalysisResponse.coding.RoundTrips response) ∧
    (∀ response : ValidationResponse, response.Fits →
      ValidationResponse.coding.RoundTrips response) ∧
    (∀ report : Report, report.Fits → Report.coding.RoundTrips report) ∧
    ∀ entry : ImportEntry, entry.line ≤ maxWhole → ImportEntry.coding.RoundTrips entry :=
  ⟨fun _ h => (AnalysisResponse.faithful h).roundTrips (by decide),
    fun _ h => (ValidationResponse.faithful h).roundTrips (by decide),
    fun _ h => (Report.faithful h).roundTrips (by decide),
    fun _ h => (ImportEntry.faithful _ h).roundTrips (by decide)⟩

/-- A report on imports of all three kinds, one of them from a module whose name has to be escaped,
and one on the last line that there is a number for. -/
private def threeImports : Report where
  imports := [⟨["os", "sys"], .none, 1⟩, ⟨["x"], .unnamed, 2⟩, ⟨["y"], .module "a\"\x01", maxWhole⟩]

private theorem fits_threeImports : threeImports.Fits := by
  intro category
  cases category <;> decide

/-- The report is read back alone and in a response, and so are errors without a column and one of
its imports. -/
theorem roundTrips_of_fits_threeImports :
    AnalysisResponse.coding.RoundTrips (.success true threeImports) ∧
    AnalysisResponse.coding.RoundTrips (.failure false "\n" (some 3) none) ∧
    ValidationResponse.coding.RoundTrips ⟨false, some ⟨"é\u2028", some maxWhole, none⟩⟩ ∧
    Report.coding.RoundTrips threeImports ∧
    ImportEntry.coding.RoundTrips ⟨["x"], .unnamed, 2⟩ :=
  ⟨roundTrips_of_fits.1 _ fits_threeImports,
    roundTrips_of_fits.1 _ ⟨by decide, by decide⟩,
    roundTrips_of_fits.2.1 _ fun error herror => by
      cases herror
      exact ⟨by decide, by decide⟩,
    roundTrips_of_fits.2.2.1 _ fits_threeImports,
    roundTrips_of_fits.2.2.2 _ (by decide)⟩

end SourceOutline
