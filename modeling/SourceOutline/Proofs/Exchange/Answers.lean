import SourceOutline.Proofs.Exchange.Conversation
import SourceOutline.Proofs.Exchange.Requests
import SourceOutline.Proofs.Response.Fitting

/-!
# What is answered about a text

Whoever asks for a report on a text, or whether it is a program, gets what `AnalysisResponse.ofText`
and `ValidationResponse.ofText` say of that text. The data of the reply comes with all its keys
sorted, and it is read back as the response in whatever layout it is written.

**Main result** (`delivers_of_asks`): this is so for every text, whether it is a program or not, and
for every line that spells a request with this text, in whatever order its members come, with
whatever blanks, escapes and other members.
-/

namespace SourceOutline.Exchange

open Json

variable {line reply : String} {data : Json}

/-- Whether a line that is received is answered at once with success, with data that is read as the
given value, and the exchange goes on as it was before. -/
def Delivers [CharacterNames] {α : Type} (coding : Coding α) (line : String) (value : α) : Prop :=
  ∃ reply data, State.start.receive (sentBytes line) = ([reply], State.start) ∧
    Json.parse reply.toList = .ok (.object [("data", data), ("status", .string "success")]) ∧
    ∀ layout, coding.decode (render layout data).toList = .ok value

/-! ### From a line to its reply -/

/-- A line with its line feed is received as one line. -/
theorem receive_sentBytes [CharacterNames] (hline : '\n' ∉ line.toList)
    (hturn : turn line.toUTF8 = .reply reply .goOn) :
    State.start.receive (sentBytes line) = ([reply], State.start) := by
  have hcut : cutLines .empty (sentBytes line).data.toList = ([line.toUTF8], .empty) := by
    rw [toList_sentBytes, cutLines_of_notMem .empty (notMem_toUTF8 hline) (List.nil_append _).symm,
      cutLines_feed]
    rfl
  have hanswer : answerLines [line.toUTF8] = ([reply], none) := by
    rw [answerLines_cons_goOn hturn]
    rfl
  simp only [State.start, State.receive, hcut, hanswer]

/-- The data of a reply stands in front of its status. -/
theorem sortKeys_envelope (data : Json) (flow : Flow) :
    (envelope (.ok (data, flow))).sortKeys =
      .object [("data", data.sortKeys), ("status", .string "success")] := by
  have hlt : "data" < "status" := by decide
  simp only [envelope, sortKeys, sortMembers, insertMember, hlt, if_true]

theorem respond_of_outcome [CharacterNames] {text : List Char} {flow : Flow}
    (h : outcome text = .ok (data, flow)) :
    respond text =
      (render .compact (.object [("data", data.sortKeys), ("status", .string "success")]),
        flow) := by
  rw [← sortKeys_envelope data flow, ← h, respond, h]

/-- **A value that is the outcome of a line is delivered**, if it is read back as it was written. -/
theorem delivers_of_outcome [CharacterNames] {α : Type} {coding : Coding α} {schema : Schema}
    {levels : Nat} {value : α} (hfaithful : coding.Faithful schema levels value)
    (hlevels : levels + 1 < depthLimit) (hfeed : '\n' ∉ line.toList)
    (hblank : Text.allBlank line.toList = false)
    (h : outcome (Text.trim line.toList) = .ok (coding.write value, .goOn)) :
    Delivers coding line value := by
  have hturn := turn_of_not_blank hblank
  rw [respond_of_outcome h] at hturn
  have hregular := hfaithful.regular.sortKeys
  -- The reply is spelled out of its data, one level deeper, so it can be read as any value.
  have hreply : Regular (levels + 1)
      (.object [("data", (coding.write value).sortKeys), ("status", .string "success")]) :=
    .object (by simp) (.members_cons hregular (.members_cons (.string _) .members_nil))
  refine ⟨_, (coding.write value).sortKeys, receive_sentBytes hfeed hturn, ?_, fun layout => ?_⟩
  · exact parse_of_spells (spellsDocument_render hreply .compact) hreply hlevels
  · exact (hfaithful.roundTrips (Nat.lt_of_succ_lt hlevels) layout).2

/-! ### Requests about a text -/

variable {command source : String} {members : List (String × Json)}

/-- A request about a text is answered with what is said about the text. -/
theorem answer_analyze [CharacterNames] {request : Request} {text : List Char}
    (hcommand : request.command = "ANALYZE") (htext : request.source = .ok text) :
    request.answer = .ok (AnalysisResponse.coding.write (.ofText text), .goOn) := by
  rw [Request.answer, hcommand]
  simp only [htext]
  rfl

theorem answer_validate [CharacterNames] {request : Request} {text : List Char}
    (hcommand : request.command = "VALIDATE") (htext : request.source = .ok text) :
    request.answer = .ok (ValidationResponse.coding.write (.ofText text), .goOn) := by
  rw [Request.answer, hcommand]
  simp only [htext]
  rfl

/-- A line that spells an object is not blank. -/
theorem not_blank_of_spellsDocument (h : SpellsDocument (.object members) line.toList) :
    Text.allBlank line.toList = false := by
  obtain ⟨inner, htrim⟩ := h.trim.exists_braces
  rw [Bool.eq_false_iff, ne_eq, ← Text.trim_eq_nil_iff, htrim]
  exact List.cons_ne_nil _ _

/-- What the answer to a request is, the line that asks for it delivers. -/
theorem delivers_of_answer [CharacterNames] {α : Type} {coding : Coding α} {schema : Schema}
    {levels : Nat} {value : α} (hfaithful : coding.Faithful schema levels value)
    (hlevels : levels + 1 < depthLimit)
    (hanswer : ∀ {request : Request}, request.command = command →
      request.source = .ok source.toList → request.answer = .ok (coding.write value, .goOn))
    (hline : SpellsDocument (.object members) line.toList) (hfeed : '\n' ∉ line.toList)
    (hasks : Request.Asks command source members) : Delivers coding line value := by
  obtain ⟨request, hrequest, hcommand, hsource⟩ := Request.ofText_of_asks hasks hline.trim.document
  refine delivers_of_outcome hfaithful hlevels hfeed (not_blank_of_spellsDocument hline) ?_
  rw [outcome, hrequest]
  exact hanswer hcommand hsource

/-- **Who asks about a text gets what is said about it**, in a reply of success: its data is read as
the response that is made of the text, whether this is a program or not. Only a text with as many
characters as there are numbers of 64 bits has lines that could not be told. -/
theorem delivers_of_asks [CharacterNames] (hsource : source.length < maxWhole)
    (hline : SpellsDocument (.object members) line.toList) (hfeed : '\n' ∉ line.toList) :
    (Request.Asks "ANALYZE" source members →
      Delivers AnalysisResponse.coding line (.ofText source.toList)) ∧
    (Request.Asks "VALIDATE" source members →
      Delivers ValidationResponse.coding line (.ofText source.toList)) := by
  have hlength : source.toList.length < maxWhole := by rwa [String.length_toList]
  obtain ⟨hanalysis, hvalidation⟩ := fits_of_concur (concur source.toList) hlength
  constructor
  · have hfaithful := AnalysisResponse.faithful hanalysis
    exact delivers_of_answer hfaithful (by decide) answer_analyze hline hfeed
  · have hfaithful := ValidationResponse.faithful hvalidation
    exact delivers_of_answer hfaithful (by decide) answer_validate hline hfeed

/-- A request with its command behind its parameters, one more member among these, blanks around it,
and a character of the text written by its number. -/
theorem delivers_of_asks_escaped :
    let line := " \x7b\"params\": \x7b\"source\":\"\\u0061\\n\",\"id\":7\x7d," ++
      "\"command\":\"ANALYZE\"\x7d\t"
    let members : List (String × Json) :=
      [("params", .object [("source", .string "a\n"), ("id", .ofNat 7)]),
        ("command", .string "ANALYZE")]
    SpellsDocument (.object members) line.toList ∧ Request.Asks "ANALYZE" "a\n" members ∧
      Delivers AnalysisResponse.coding line (.ofText "a\n".toList) := by
  intro line members
  have hdigit : IsHexDigit '0' 0 ∧ IsHexDigit '6' 6 ∧ IsHexDigit '1' 1 :=
    ⟨⟨by decide, .inl rfl⟩, ⟨by decide, .inl rfl⟩, ⟨by decide, .inl rfl⟩⟩
  have hletter : SpellsChar 'a' ['\\', 'u', '0', '0', '6', '1'] :=
    .unit (.mk hdigit.1 hdigit.1 hdigit.2.1 hdigit.2.2)
  have hchars : SpellsChars "a\n".toList ['\\', 'u', '0', '0', '6', '1', '\\', 'n'] :=
    .cons hletter (.cons (.short (by decide)) .nil)
  have hblanks : AllSpace [' '] ∧ AllSpace ['\t'] :=
    ⟨List.forall_mem_singleton.mpr rfl, List.forall_mem_singleton.mpr rfl⟩
  have hsource : SpellsMember ("source", .string "a\n") _ :=
    .mk (spellsString_quote "source") allSpace_nil allSpace_nil (.string (.mk hchars))
  have hid : SpellsMember ("id", .ofNat 7) _ :=
    .mk (spellsString_quote "id") allSpace_nil allSpace_nil (.natural (by decide))
  have hparams : SpellsMember ("params", .object [("source", .string "a\n"), ("id", .ofNat 7)]) _ :=
    .mk (spellsString_quote "params") allSpace_nil hblanks.1
      (.object allSpace_nil (.cons hsource allSpace_nil allSpace_nil (.last hid allSpace_nil)))
  have hcommand : SpellsMember ("command", .string "ANALYZE") _ :=
    .mk (spellsString_quote "command") allSpace_nil allSpace_nil
      (.string (spellsString_quote "ANALYZE"))
  have hobject : Spells (.object members) _ :=
    .object allSpace_nil (.cons hparams allSpace_nil allSpace_nil (.last hcommand allSpace_nil))
  have hline : SpellsDocument (.object members) line.toList :=
    ⟨[' '], _, ['\t'], by decide, hblanks.1, hblanks.2, hobject⟩
  have hasks : Request.Asks "ANALYZE" "a\n" members :=
    ⟨rfl, _, rfl, rfl, .object (List.forall_mem_cons.mpr ⟨.string _,
      List.forall_mem_singleton.mpr (.number _)⟩)⟩
  exact ⟨hline, hasks, (delivers_of_asks (by decide) hline (by decide)).1 hasks⟩

end SourceOutline.Exchange
