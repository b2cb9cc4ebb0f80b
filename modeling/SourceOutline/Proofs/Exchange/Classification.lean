import Mathlib
import SourceOutline.Proofs.Exchange.Answers

/-!
# Which requests are answered how

What is answered depends on the command of a request and on its parameters, as they are written, and
on nothing else of the line (`Exchange.AnswersRequest`). The commands about a text need parameters
with a source; the others have no use for parameters, whatever these are. A text that is no program
is answered with success: what is wrong with it is data like any other.

Replies with different statuses are different, and so are errors with different messages
(`Succeeds.not_refuses`, `Refuses.unique`). So what a reply says can be told from what was the
outcome of the line, and this from the request.

**Main result** (`answersRequest_respond`): every line is answered in this way, whether it is a
request or not.
-/

namespace SourceOutline

open Json

/-! ### The wording of refusals -/

namespace Refusal

private theorem message_malformed (message : String) :
    (malformed message).message = "Invalid JSON format: " ++ message := rfl

private theorem message_missingParams : missingParams.message = "Missing params" := rfl

private theorem message_missingSource :
    missingSource.message = "Missing 'source' param" := rfl

private theorem message_unknownCommand (command : String) :
    (unknownCommand command).message = "Unknown command: " ++ command := rfl

/-- No two refusals have the same wording. -/
theorem message_injective : Function.Injective message := by
  intro refusal refusal' h
  rw [← String.toList_inj] at h
  cases refusal <;> cases refusal' <;>
    simp_all [message_malformed, message_missingParams, message_missingSource,
      message_unknownCommand, ← String.toList_inj]

end Refusal

/-! ### What a request is answered -/

namespace Request

/-- The commands that ask for what is said about a text. -/
def IsAboutText (command : String) : Prop :=
  command = "ANALYZE" ∨ command = "VALIDATE"

/-- The commands that are known. -/
def commands : List String :=
  ["PING", "ANALYZE", "VALIDATE", "SHUTDOWN"]

/-- A request is answered with data if it needs no source, or has one. -/
theorem exists_answer_eq_ok_iff [CharacterNames] {command : String} {params : Option Json} :
    (∃ result, (Request.mk command (received params)).answer = .ok result) ↔
      command = "PING" ∨ command = "SHUTDOWN" ∨
        IsAboutText command ∧ ∃ source, HoldsSource params source := by
  have hsource : (∃ text, source ⟨command, received params⟩ = .ok text) ↔
      ∃ source, HoldsSource params source := by
    simp only [source_eq_ok_iff]
    exact ⟨fun ⟨_, source, h, _⟩ => ⟨source, h⟩, fun ⟨source, h⟩ => ⟨_, source, h, rfl⟩⟩
  rw [← hsource]
  unfold answer
  dsimp only
  split
  · simp [pure, Except.pure]
  · cases source _ <;> simp [IsAboutText, Bind.bind, Except.bind, pure, Except.pure]
  · cases source _ <;> simp [IsAboutText, Bind.bind, Except.bind, pure, Except.pure]
  · simp [pure, Except.pure]
  · next hping hanalyze hvalidate hstop =>
    simp_all [IsAboutText, throw, throwThe, MonadExceptOf.throw]

/-- A request is refused if it is about a text but has none, or if its command is not known. -/
theorem answer_eq_error_iff [CharacterNames] (request : Request) (refusal : Refusal) :
    request.answer = .error refusal ↔
      IsAboutText request.command ∧ request.source = .error refusal ∨
        request.command ∉ commands ∧ refusal = .unknownCommand request.command := by
  obtain ⟨command, params⟩ := request
  unfold answer
  dsimp only
  split
  · simp [IsAboutText, commands, pure, Except.pure]
  · cases source _ <;> simp [IsAboutText, commands, Bind.bind, Except.bind, pure, Except.pure]
  · cases source _ <;> simp [IsAboutText, commands, Bind.bind, Except.bind, pure, Except.pure]
  · simp [IsAboutText, commands, pure, Except.pure]
  · next hping hanalyze hvalidate hstop =>
    simp_all [IsAboutText, commands, throw, throwThe, MonadExceptOf.throw, eq_comm]

end Request

namespace Exchange

open Request

variable {line : List Char} {command : String} {params : Option Json}

/-! ### Replies -/

/-- Whether a reply is one of success with the given data. -/
def Succeeds (reply : String) (data : Json) : Prop :=
  reply = render .compact (.object [("data", data), ("status", .string "success")])

/-- Whether a reply is an error with the given message. -/
def Refuses (reply message : String) : Prop :=
  reply = render .compact (.object [("message", .string message), ("status", .string "error")])

/-- A reply has one status. -/
theorem Succeeds.not_refuses {reply message : String} {data : Json} (h : Succeeds reply data) :
    ¬ Refuses reply message := by
  intro h'
  have htexts := congrArg String.toList (h.symm.trans h')
  simp [render, compact, compactMembers, quote, escapeChar] at htexts

/-- An error has one message. -/
theorem Refuses.unique {reply message message' : String} (h : Refuses reply message)
    (h' : Refuses reply message') : message = message' := by
  have hregular : ∀ text : String,
      Regular 1 (.object [("message", .string text), ("status", .string "error")]) :=
    fun _ => .object (by simp) (.members_cons (.string _) (.members_cons (.string _) .members_nil))
  -- Both are what is read from the reply.
  have hparse := parse_of_spells (spellsDocument_render (hregular message) .compact)
    (hregular message) (by decide)
  have hparse' := parse_of_spells (spellsDocument_render (hregular message') .compact)
    (hregular message') (by decide)
  rw [← h] at hparse
  rw [← h', hparse] at hparse'
  simpa using hparse'

section

variable [CharacterNames]

theorem respond_of_refusal {refusal : Refusal} (h : outcome line = .error refusal) :
    respond line =
      (render .compact
        (.object [("message", .string refusal.message), ("status", .string "error")]), .goOn) := by
  have hlt : "message" < "status" := by decide
  simp only [respond, h, envelope, sortKeys, sortMembers, insertMember, hlt, if_true]

/-- A line is answered with success exactly if it has data as its outcome. -/
theorem exists_succeeds_iff :
    (∃ data, Succeeds (respond line).1 data) ↔ ∃ result, outcome line = .ok result := by
  constructor
  · rintro ⟨data, h⟩
    cases houtcome : outcome line with
    | ok result => exact ⟨result, rfl⟩
    | error refusal => exact absurd (congrArg Prod.fst (respond_of_refusal houtcome)) h.not_refuses
  · rintro ⟨⟨data, flow⟩, houtcome⟩
    exact ⟨data.sortKeys, congrArg Prod.fst (respond_of_outcome houtcome)⟩

/-- A line is answered with the message of a refusal exactly if that is its outcome. -/
theorem refuses_iff (refusal : Refusal) :
    Refuses (respond line).1 refusal.message ↔ outcome line = .error refusal := by
  constructor
  · intro h
    cases houtcome : outcome line with
    | ok result =>
      obtain ⟨data, hsuccess⟩ := exists_succeeds_iff.mpr ⟨result, houtcome⟩
      exact absurd h hsuccess.not_refuses
    | error other =>
      have hother : Refuses (respond line).1 other.message :=
        congrArg Prod.fst (respond_of_refusal houtcome)
      rw [Refusal.message_injective (hother.unique h)]
  · intro h
    exact congrArg Prod.fst (respond_of_refusal h)

/-! ### From a line to its outcome -/

theorem outcome_of_isWritten (h : IsWritten line command params) :
    outcome line = (Request.mk command (received params)).answer := by
  rw [outcome, ofText_of_isWritten h]

/-- What is no request is malformed. -/
theorem exists_malformed_iff :
    (∃ message, outcome line = .error (.malformed message)) ↔
      ∀ command params, ¬ IsWritten line command params := by
  constructor
  · rintro ⟨message, houtcome⟩ command params h
    rw [outcome_of_isWritten h, answer_eq_error_iff, source_eq_error_iff] at houtcome
    simp at houtcome
  · intro h
    rcases isWritten_or line with ⟨command, params, h', -⟩ | ⟨-, fault, hfault⟩
    · exact absurd h' (h command params)
    · exact ⟨fault.message line, by rw [outcome, hfault]; rfl⟩

/-- Everything else comes from a request. -/
theorem outcome_eq_iff {result : Except Refusal (Json × Flow)}
    (hresult : ∀ message, result ≠ .error (.malformed message)) :
    outcome line = result ↔
      ∃ command params, IsWritten line command params ∧
        (Request.mk command (received params)).answer = result := by
  constructor
  · intro h
    rcases isWritten_or line with ⟨command, params, hwritten, -⟩ | ⟨hnone, -⟩
    · exact ⟨command, params, hwritten, by rw [← outcome_of_isWritten hwritten, h]⟩
    · obtain ⟨message, hmessage⟩ := exists_malformed_iff.mpr hnone
      exact absurd (h.symm.trans hmessage) (hresult message)
  · rintro ⟨command, params, hwritten, h⟩
    rw [outcome_of_isWritten hwritten, h]

/-! ### All lines -/

/-- Whether a line is answered as the request that it is asks for, and refused if it is none. -/
structure AnswersRequest (line : List Char) (reply : String) (flow : Flow) : Prop where
  success : (∃ data, Succeeds reply data) ↔ ∃ command params, IsWritten line command params ∧
    (command = "PING" ∨ command = "SHUTDOWN" ∨
      IsAboutText command ∧ ∃ source, HoldsSource params source)
  missingParams : Refuses reply "Missing params" ↔ ∃ command params,
    IsWritten line command params ∧ IsAboutText command ∧ (params = none ∨ params = some .null)
  missingSource : Refuses reply "Missing 'source' param" ↔ ∃ command value,
    IsWritten line command (some value) ∧ IsAboutText command ∧ value ≠ .null ∧
      ∀ source, ¬ HoldsSource (some value) source
  unknownCommand : ∀ command, Refuses reply ("Unknown command: " ++ command) ↔
    command ∉ commands ∧ ∃ params, IsWritten line command params
  malformed : (∃ message, Refuses reply ("Invalid JSON format: " ++ message)) ↔
    ∀ command params, ¬ IsWritten line command params
  stop : flow = .stop ↔ ∃ params, IsWritten line "SHUTDOWN" params
  /-- What is said about a text is data, even if it is an error in the text. -/
  analysis : ∀ params source, IsWritten line "ANALYZE" params → HoldsSource params source →
    Succeeds reply (AnalysisResponse.ofText source.toList).toJson.sortKeys
  validation : ∀ params source, IsWritten line "VALIDATE" params → HoldsSource params source →
    Succeeds reply (ValidationResponse.ofText source.toList).toJson.sortKeys

private theorem success_iff :
    (∃ data, Succeeds (respond line).1 data) ↔ ∃ command params, IsWritten line command params ∧
      (command = "PING" ∨ command = "SHUTDOWN" ∨
        IsAboutText command ∧ ∃ source, HoldsSource params source) := by
  rw [exists_succeeds_iff]
  constructor
  · rintro ⟨result, h⟩
    obtain ⟨command, params, hwritten, hanswer⟩ := (outcome_eq_iff (by simp)).mp h
    exact ⟨command, params, hwritten, exists_answer_eq_ok_iff.mp ⟨result, hanswer⟩⟩
  · rintro ⟨command, params, hwritten, h⟩
    obtain ⟨result, hanswer⟩ := exists_answer_eq_ok_iff.mpr h
    exact ⟨result, (outcome_of_isWritten hwritten).trans hanswer⟩

private theorem missingParams_iff :
    Refuses (respond line).1 "Missing params" ↔ ∃ command params,
      IsWritten line command params ∧ IsAboutText command ∧
        (params = none ∨ params = some .null) := by
  rw [← Refusal.message_missingParams, refuses_iff, outcome_eq_iff (by simp)]
  simp [answer_eq_error_iff, source_eq_error_iff, received_eq_none_iff]

private theorem missingSource_iff :
    Refuses (respond line).1 "Missing 'source' param" ↔ ∃ command value,
      IsWritten line command (some value) ∧ IsAboutText command ∧ value ≠ .null ∧
        ∀ source, ¬ HoldsSource (some value) source := by
  rw [← Refusal.message_missingSource, refuses_iff, outcome_eq_iff (by simp)]
  simp only [answer_eq_error_iff, source_eq_error_iff, ne_eq, received_eq_none_iff]
  constructor
  · rintro ⟨command, _ | value, hwritten, h⟩
    · simp at h
    · exact ⟨command, value, hwritten, by simpa using h⟩
  · rintro ⟨command, value, hwritten, h⟩
    exact ⟨command, some value, hwritten, by simpa using h⟩

private theorem unknownCommand_iff (name : String) :
    Refuses (respond line).1 ("Unknown command: " ++ name) ↔
      name ∉ commands ∧ ∃ params, IsWritten line name params := by
  rw [← Refusal.message_unknownCommand, refuses_iff, outcome_eq_iff (by simp)]
  simp only [answer_eq_error_iff, source_eq_error_iff]
  constructor
  · rintro ⟨command, params, hwritten, h⟩
    obtain ⟨hcommand, rfl⟩ : command ∉ commands ∧ name = command := by simpa using h
    exact ⟨hcommand, params, hwritten⟩
  · rintro ⟨hname, params, hwritten⟩
    exact ⟨name, params, hwritten, .inr ⟨hname, rfl⟩⟩

private theorem malformed_iff :
    (∃ message, Refuses (respond line).1 ("Invalid JSON format: " ++ message)) ↔
      ∀ command params, ¬ IsWritten line command params := by
  simp only [← Refusal.message_malformed, refuses_iff, exists_malformed_iff]

private theorem stop_iff :
    (respond line).2 = .stop ↔ ∃ params, IsWritten line "SHUTDOWN" params := by
  simp only [respond_stop_iff, ofText_eq_ok_iff]
  constructor
  · rintro ⟨request, ⟨params, hwritten, -⟩, hcommand⟩
    exact ⟨params, hcommand ▸ hwritten⟩
  · rintro ⟨params, hwritten⟩
    exact ⟨⟨"SHUTDOWN", received params⟩, ⟨params, hwritten, rfl⟩, rfl⟩

/-- What is said about a text is data. -/
private theorem succeeds_of_answer {data : Json} {flow : Flow}
    (hwritten : IsWritten line command params)
    (h : (Request.mk command (received params)).answer = .ok (data, flow)) :
    Succeeds (respond line).1 data.sortKeys :=
  congrArg Prod.fst (respond_of_outcome ((outcome_of_isWritten hwritten).trans h))

/-- **Every line is answered as the request that it is asks for.** -/
theorem answersRequest_respond (line : List Char) :
    AnswersRequest line (respond line).1 (respond line).2 where
  success := success_iff
  missingParams := missingParams_iff
  missingSource := missingSource_iff
  unknownCommand := unknownCommand_iff
  malformed := malformed_iff
  stop := stop_iff
  analysis _ _ hwritten hsource :=
    succeeds_of_answer hwritten (answer_analyze rfl (source_eq_ok_iff.mpr ⟨_, hsource, rfl⟩))
  validation _ _ hwritten hsource :=
    succeeds_of_answer hwritten (answer_validate rfl (source_eq_ok_iff.mpr ⟨_, hsource, rfl⟩))

end

/-- The last of two sources counts, and it is no program. -/
theorem answersRequest_respond_repeated :
    Succeeds (respond "[\"ANALYZE\", \x7b\"source\":1,\"source\":\"(\"\x7d]".toList).1
      (AnalysisResponse.ofText "(".toList).toJson.sortKeys := by
  have hwritten :
      IsWritten "[\"ANALYZE\", \x7b\"source\":1,\"source\":\"(\"\x7d]".toList "ANALYZE"
        (some (.object [("source", .ofNat 1), ("source", .string "(")])) := by
    cbv
  have hsource : HoldsSource (some (.object [("source", .ofNat 1), ("source", .string "(")])) "(" :=
    ⟨_, rfl, by simp⟩
  exact (answersRequest_respond _).analysis _ _ hwritten hsource

end Exchange

end SourceOutline
