import SourceOutline.Proofs.Exchange.Written
import SourceOutline.Text.Blank

/-!
# What a line asks for

A request is an object with a command, and with parameters if the command is about a text. Members
may come in any order, others may be among them, and the text of the request may have blanks and
escapes as JSON has them. All that counts is what the object gives to the keys that are looked for
(`Request.Asks`).

**Main result** (`Request.ofText_of_asks`): every line that spells such an object is read as a
request with its command, and with parameters that hold its text.
-/

namespace SourceOutline

open Json

/-! ### Lines that spell an object -/

namespace Json

variable {members : List (String × Json)} {key : String} {value : Json}

theorem AllSpace.allBlank {blanks : List Char} (h : AllSpace blanks) :
    Text.allBlank blanks = true := by
  rw [Text.allBlank, List.all_eq_true]
  intro c hc
  have hspace := h c hc
  simp only [isSpace, Bool.or_eq_true, beq_iff_eq] at hspace
  rcases hspace with ((rfl | rfl) | rfl) | rfl <;> rfl

/-- An object is spelled between braces. -/
theorem Spells.exists_braces {text : List Char} (h : Spells (.object members) text) :
    ∃ inner, text = '{' :: (inner ++ ['}']) := by
  cases h with
  | emptyObject _ => exact ⟨_, rfl⟩
  | object _ _ => exact ⟨_, by rw [List.append_assoc]⟩

/-- Of a line that spells an object, trimming leaves the object. -/
theorem SpellsDocument.trim {line : List Char} (h : SpellsDocument (.object members) line) :
    Spells (.object members) (Text.trim line) := by
  obtain ⟨before, text, behind, rfl, hbefore, hbehind, htext⟩ := h
  obtain ⟨inner, rfl⟩ := htext.exists_braces
  rw [List.cons_append, List.append_assoc, List.singleton_append,
    Text.trim_between hbefore.allBlank hbehind.allBlank rfl rfl]
  exact htext

theorem Spells.document {json : Json} {text : List Char} (h : Spells json text) :
    SpellsDocument json text :=
  ⟨[], text, [], (List.append_nil text).symm, allSpace_nil, allSpace_nil, h⟩

end Json

/-! ### Requests about a text -/

namespace Request

/-- Whether an object asks for what a command has to say about a text: it gives one value to each of
the keys that are looked for. What else it holds does not matter, nor does what else the parameters
hold, if it is not nested too deep to be read. -/
structure Asks (command text : String) (members : List (String × Json)) : Prop where
  command : given "command" members = [.string command]
  params : ∃ params, given "params" members = [.object params] ∧
    given "source" params = [.string text] ∧ Within (depthLimit - 2) (.object params)

variable {command text : String} {members : List (String × Json)}

/-- What asks for something is a request with the command and with parameters that give the text. -/
theorem isWritten_of_asks (h : Asks command text members) {line : List Char}
    (hline : SpellsDocument (.object members) line) :
    ∃ params, IsWritten line command params ∧ HoldsSource params text := by
  obtain ⟨params, hparams, hsource, hwithin⟩ := h.params
  refine ⟨some (.object params), isWritten_of_spells hline h.command hparams ?_, params, rfl, ?_⟩
  · rintro _ ⟨⟩
    exact hwithin
  · rw [hsource, List.getLast?_singleton]

/-- **A line that asks for something is read as a request** with its command and its text. -/
theorem ofText_of_asks (h : Asks command text members) {line : List Char}
    (hline : SpellsDocument (.object members) line) :
    ∃ request, ofText line = .ok request ∧ request.command = command ∧
      request.source = .ok text.toList := by
  obtain ⟨params, hwritten, hsource⟩ := isWritten_of_asks h hline
  exact ⟨_, ofText_of_isWritten hwritten, rfl, source_eq_ok_iff.mpr ⟨text, hsource, rfl⟩⟩

end Request

end SourceOutline
