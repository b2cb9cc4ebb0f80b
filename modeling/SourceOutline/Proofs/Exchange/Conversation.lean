import SourceOutline.Proofs.Exchange.Lines

/-!
# What is replied to whom

`Converses` says which replies lines get, line by line: none if the line is blank, and else the one
that the line alone decides. A request to stop is the last to be answered, and a line that is not
text is not answered, nor is any line behind it. Nothing else ends an exchange: not a line that is
no request, and not a request that is refused.

**Main result** (`converses_run`): this is what a client gets, in whatever pieces its bytes come,
and each reply is one line of what is sent.
-/

namespace SourceOutline.Exchange

open Json

variable {line : ByteArray} {lines front : List ByteArray} {text reply : String}
  {texts : List String} {flow : Flow}

/-! ### Requests to stop -/

/-- Whether a line is a request to stop. -/
def AsksToStop (text : String) : Prop :=
  ∃ request, Request.ofText (Text.trim text.toList) = .ok request ∧ request.command = "SHUTDOWN"

/-- Nothing is no request. -/
private theorem ofText_nil : ∃ fault, Request.ofText [] = .error fault := by
  have hdocument : Document.ofText [] = ⟨.broken 0 false (.same .eofInValue 0), none⟩ := by
    rw [Document.ofText, readTree, skipSpace]
  have hdecode : ∃ fault, Request.shape.decode [] = .error fault := by
    rw [Reader.decode, hdocument]
    exact ⟨_, rfl⟩
  obtain ⟨fault, hfault⟩ := hdecode
  refine ⟨fault, ?_⟩
  rw [Request.ofText, hfault]
  rfl

/-- A request to stop is not blank. -/
theorem AsksToStop.allBlank_eq_false (h : AsksToStop text) :
    Text.allBlank text.toList = false := by
  obtain ⟨request, hrequest, -⟩ := h
  rw [Bool.eq_false_iff, ne_eq, ← Text.trim_eq_nil_iff]
  intro htrim
  obtain ⟨fault, hfault⟩ := ofText_nil
  rw [htrim, hfault] at hrequest
  cases hrequest

/-! ### Runs -/

private theorem fromUTF8?_toUTF8 (text : String) : String.fromUTF8? text.toUTF8 = some text :=
  dif_pos text.isValidUTF8

section

variable [CharacterNames]

/-- All replies to a client whose bytes come in the given pieces, and what becomes of the
program. -/
def State.run (state : State) : (pieces : List ByteArray) → List String × Flow
  | [] => state.close
  | bytes :: pieces =>
    let (texts, next) := state.receive bytes
    let (others, flow) := next.run pieces
    (texts ++ others, flow)

/-- What becomes of the program if no more lines come. -/
def conclude (answer : List String × Option Flow) : List String × Flow :=
  (answer.1, answer.2.getD .goOn)

/-! ### Conversations -/

/-- The replies that lines get, and what becomes of the program. -/
inductive Converses : List ByteArray → List String → Flow → Prop
  | done : Converses [] [] .goOn
  | blank {text : String} {lines : List ByteArray} {texts : List String} {flow : Flow}
    (hblank : Text.allBlank text.toList = true) (h : Converses lines texts flow) :
    Converses (text.toUTF8 :: lines) texts flow
  | answered {text : String} {lines : List ByteArray} {texts : List String} {flow : Flow}
    (hblank : Text.allBlank text.toList = false) (hstop : ¬ AsksToStop text)
    (h : Converses lines texts flow) :
    Converses (text.toUTF8 :: lines) ((respond (Text.trim text.toList)).1 :: texts) flow
  | stopped {text : String} {lines : List ByteArray} (hstop : AsksToStop text) :
    Converses (text.toUTF8 :: lines) [(respond (Text.trim text.toList)).1] .stop
  | noText {line : ByteArray} {lines : List ByteArray}
    (hline : ∀ text : String, text.toUTF8 ≠ line) : Converses (line :: lines) [] .goOn

/-! ### One line -/

/-- Only the command to stop stops the program. -/
theorem answer_stop_iff (request : Request) :
    (∃ data, request.answer = .ok (data, .stop)) ↔ request.command = "SHUTDOWN" := by
  obtain ⟨command, params⟩ := request
  unfold Request.answer
  dsimp only
  split
  · simp [pure, Except.pure]
  · cases Request.source _ <;> simp [Bind.bind, Except.bind, pure, Except.pure]
  · cases Request.source _ <;> simp [Bind.bind, Except.bind, pure, Except.pure]
  · simp [pure, Except.pure]
  · next hstop => simpa [throw, throwThe, MonadExceptOf.throw] using hstop

/-- A line stops the program exactly if it is a request to do so. -/
theorem respond_stop_iff {trimmed : List Char} :
    (respond trimmed).2 = .stop ↔
      ∃ request, Request.ofText trimmed = .ok request ∧ request.command = "SHUTDOWN" := by
  unfold respond outcome
  dsimp only
  cases hrequest : Request.ofText trimmed with
  | error fault => simp [throw, throwThe, MonadExceptOf.throw]
  | ok request =>
    have hanswer := answer_stop_iff request
    cases hdata : request.answer with
    | error refusal => simpa [hdata] using hanswer
    | ok answer =>
      obtain ⟨data, flow⟩ := answer
      simpa [hdata] using hanswer

theorem goOn_of_not_asksToStop (h : ¬ AsksToStop text) :
    (respond (Text.trim text.toList)).2 = .goOn := by
  cases hflow : (respond (Text.trim text.toList)).2 with
  | goOn => rfl
  | stop => exact absurd (respond_stop_iff.mp hflow) h

/-- A reply is one line. -/
theorem oneLine_respond (line : List Char) : OneLine (respond line).1.toList :=
  oneLine_render_compact _

theorem turn_of_blank (h : Text.allBlank text.toList = true) : turn text.toUTF8 = .silence := by
  rw [turn, fromUTF8?_toUTF8]
  dsimp only
  rw [Text.trim_eq_nil_iff.mpr h]

theorem turn_of_not_blank (h : Text.allBlank text.toList = false) :
    turn text.toUTF8 =
      .reply (respond (Text.trim text.toList)).1 (respond (Text.trim text.toList)).2 := by
  rw [turn, fromUTF8?_toUTF8]
  dsimp only
  cases htrim : Text.trim text.toList with
  | nil =>
    rw [Text.trim_eq_nil_iff.mp htrim] at h
    exact absurd h (by decide)
  | cons c rest => rfl

theorem turn_of_noText (h : ∀ text : String, text.toUTF8 ≠ line) : turn line = .hangUp := by
  have hnone : String.fromUTF8? line = none :=
    dif_neg fun hvalid => h (String.fromUTF8 line hvalid) rfl
  rw [turn, hnone]

/-! ### Many lines -/

theorem answerLines_cons_silence (h : turn line = .silence) :
    answerLines (line :: lines) = answerLines lines := by
  rw [answerLines, h]

theorem answerLines_cons_goOn (h : turn line = .reply reply .goOn) :
    answerLines (line :: lines) = (reply :: (answerLines lines).1, (answerLines lines).2) := by
  rw [answerLines, h]

theorem answerLines_cons_stop (h : turn line = .reply reply .stop) :
    answerLines (line :: lines) = ([reply], some .stop) := by
  rw [answerLines, h]

theorem answerLines_cons_hangUp (h : turn line = .hangUp) :
    answerLines (line :: lines) = ([], some .goOn) := by
  rw [answerLines, h]

/-- **Lines are answered alike in one go and in two**: behind lines that do not end the exchange,
the others are answered as they are by themselves. -/
theorem answerLines_append : answerLines (front ++ lines) =
    match answerLines front with
    | (texts, none) => (texts ++ (answerLines lines).1, (answerLines lines).2)
    | (texts, some flow) => (texts, some flow) := by
  induction front with
  | nil => rfl
  | cons line front ih =>
    rw [List.cons_append]
    cases hturn : turn line with
    | silence => rw [answerLines_cons_silence hturn, answerLines_cons_silence hturn, ih]
    | reply reply flow =>
      cases flow with
      | goOn =>
        rw [answerLines_cons_goOn hturn, answerLines_cons_goOn hturn, ih]
        obtain ⟨texts, ending⟩ := answerLines front
        cases ending <;> rfl
      | stop => rw [answerLines_cons_stop hturn, answerLines_cons_stop hturn]
    | hangUp => rw [answerLines_cons_hangUp hturn, answerLines_cons_hangUp hturn]

/-! ### Pieces -/

/-- Nothing is replied when the exchange is over. -/
theorem run_ended (pieces : List ByteArray) : (State.ended flow).run pieces = ([], flow) := by
  induction pieces with
  | nil => rfl
  | cons bytes pieces ih =>
    rw [State.run, State.receive]
    dsimp only
    rw [ih]
    rfl

/-- **The pieces do not matter**: all lines of the bytes are answered, whatever was there before. -/
theorem run_listening (before : ByteArray) (pieces : List ByteArray) :
    (State.listening before).run pieces =
      conclude (answerLines (allLines (cutLines before (joined pieces)))) := by
  induction pieces generalizing before with
  | nil =>
    -- What is left when the input ends is a last line, unless it is empty.
    have hlines : allLines (cutLines before (joined [])) =
        if before.isEmpty then [] else [before] := rfl
    rw [hlines, State.run, State.close]
    split <;> rfl
  | cons bytes pieces ih =>
    -- What the first piece leaves of a line is completed by the others.
    have hcut : allLines (cutLines before (joined (bytes :: pieces))) =
        (cutLines before bytes.data.toList).1 ++
          allLines (cutLines (cutLines before bytes.data.toList).2 (joined pieces)) := by
      rw [joined, List.flatMap_cons, cutLines_append, ← joined, allLines_append]
    rw [hcut, answerLines_append, State.run, State.receive]
    dsimp only
    obtain ⟨texts, ending⟩ := answerLines (cutLines before bytes.data.toList).1
    cases ending with
    | none =>
      dsimp only
      rw [ih]
      rfl
    | some flow =>
      dsimp only
      rw [run_ended, List.append_nil]
      rfl

/-! ### All of it -/

/-- The replies to lines are those of the conversation. -/
theorem converses_answerLines (lines : List ByteArray) :
    Converses lines (conclude (answerLines lines)).1 (conclude (answerLines lines)).2 := by
  induction lines with
  | nil => exact .done
  | cons line lines ih =>
    -- One case for each rule, told by what the line is and not by what the program makes of it.
    by_cases hline : ∃ text : String, text.toUTF8 = line
    · obtain ⟨text, rfl⟩ := hline
      by_cases hblank : Text.allBlank text.toList = true
      · rw [answerLines_cons_silence (turn_of_blank hblank)]
        exact .blank hblank ih
      rw [Bool.not_eq_true] at hblank
      have hturn := turn_of_not_blank hblank
      by_cases hstop : AsksToStop text
      · rw [respond_stop_iff.mpr hstop] at hturn
        rw [answerLines_cons_stop hturn]
        exact .stopped hstop
      · rw [goOn_of_not_asksToStop hstop] at hturn
        rw [answerLines_cons_goOn hturn]
        exact .answered hblank hstop ih
    · rw [not_exists] at hline
      rw [answerLines_cons_hangUp (turn_of_noText hline)]
      exact .noText hline

/-- There is no other conversation about the same lines. -/
theorem conclude_of_converses (h : Converses lines texts flow) :
    conclude (answerLines lines) = (texts, flow) := by
  induction h with
  | done => rfl
  | blank hblank _ ih => rw [answerLines_cons_silence (turn_of_blank hblank), ih]
  | answered hblank hstop _ ih =>
    have hturn := turn_of_not_blank hblank
    rw [goOn_of_not_asksToStop hstop] at hturn
    rw [conclude, Prod.mk.injEq] at ih
    rw [answerLines_cons_goOn hturn, conclude, ih.1, ih.2]
  | stopped hstop =>
    have hturn := turn_of_not_blank hstop.allBlank_eq_false
    rw [respond_stop_iff.mpr hstop] at hturn
    rw [answerLines_cons_stop hturn]
    rfl
  | noText hline =>
    rw [answerLines_cons_hangUp (turn_of_noText hline)]
    rfl

/-- All replies of a conversation are on one line. -/
theorem Converses.oneLine (h : Converses lines texts flow) :
    ∀ text ∈ texts, OneLine text.toList := by
  induction h with
  | done | noText _ => exact fun _ htext => absurd htext List.not_mem_nil
  | blank _ _ ih => exact ih
  | answered _ _ _ ih => exact List.forall_mem_cons.mpr ⟨oneLine_respond _, ih⟩
  | stopped _ => exact List.forall_mem_singleton.mpr (oneLine_respond _)

/-- **What a client gets.** Its lines are answered one by one, and in no other way than this; each
reply is on one line, so that the client gets the replies when it cuts what is sent at the line
feeds. -/
theorem converses_run {pieces : List ByteArray} (h : Frames lines (joined pieces)) :
    Converses lines (State.start.run pieces).1 (State.start.run pieces).2 ∧
    (∀ texts flow, Converses lines texts flow → State.start.run pieces = (texts, flow)) ∧
    (∀ text ∈ (State.start.run pieces).1, OneLine text.toList) ∧
    Frames ((State.start.run pieces).1.map String.toUTF8)
      (joined ((State.start.run pieces).1.map sentBytes)) := by
  have hrun : State.start.run pieces = conclude (answerLines lines) := by
    rw [State.start, run_listening, frames_iff.mp h]
  have hconverses := converses_answerLines lines
  rw [hrun]
  exact ⟨hconverses, fun texts flow => conclude_of_converses, hconverses.oneLine,
    frames_sentBytes hconverses.oneLine⟩

end

/-- A request in two pieces, blanks, a line that is no request, a line that is not text, and a last
one without a line feed. -/
theorem converses_run_pieces :
    let lines : List ByteArray :=
      ["\x7b\"command\":\"PING\"\x7d".toUTF8, " ".toUTF8, "PING".toUTF8, ⟨#[0xff]⟩, "x".toUTF8]
    let pieces : List ByteArray :=
      ["\x7b\"command\":".toUTF8, "\"PING\"\x7d\n \nPING\n".toUTF8, ⟨#[0xff, 10]⟩, "x".toUTF8]
    Frames lines (joined pieces) ∧
      Converses lines (State.start.run pieces).1 (State.start.run pieces).2 :=
  have h := frames_iff.mpr (by decide)
  ⟨h, (converses_run h).1⟩

end SourceOutline.Exchange
