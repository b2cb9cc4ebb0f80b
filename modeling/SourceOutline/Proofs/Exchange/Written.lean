import SourceOutline.Exchange
import SourceOutline.Proofs.Json.Faithful

/-!
# Requests as they are written

A request is received with the keys of its parameters sorted, each once. `Request.IsWritten` says
which parameters a line has before that, as they are written: with all their members, in the order
of the line. Members of a request that are no field of it are passed over, and a line may also be an
array of a command and parameters.

`Request.writtenShape` and `Request.shape` go through the tree of a line in the same steps, so they
fail at the same place or make two forms of one request (`Json.Alike`).

**Main results**: the requests that are received are those that are written
(`Request.ofText_eq_ok_iff`), and the source of a request is the last text that its parameters give
(`Request.source_eq_ok_iff`, `Request.source_eq_error_iff`).
-/

namespace SourceOutline

open Json

/-! ### Two readers that go the same way -/

namespace Json

/-- Two readings that fail alike, or have two forms of one result. -/
inductive Alike {α β γ : Type} (f : α → β) (g : α → γ) : Except Fault β → Except Fault γ → Prop
  | error (fault : Fault) : Alike f g (.error fault) (.error fault)
  | ok (result : α) : Alike f g (.ok (f result)) (.ok (g result))

namespace Alike

variable {α α' β β' γ γ' : Type} {f : α → β} {g : α → γ} {f' : α' → β'} {g' : α' → γ'}
variable {x : Except Fault β} {y : Except Fault γ}

/-- A reading is like itself. -/
theorem refl (x : Except Fault α) : Alike id id x x := by
  cases x with
  | error fault => exact .error fault
  | ok a => exact .ok a

/-- Readings are alike if each step of the one is like that of the other. -/
theorem bind {k : β → Except Fault β'} {l : γ → Except Fault γ'} (h : Alike f g x y)
    (hnext : ∀ result, Alike f' g' (k (f result)) (l (g result))) :
    Alike f' g' (x >>= k) (y >>= l) := by
  cases h with
  | error fault => exact .error fault
  | ok result => exact hnext result

/-- Whole texts are read alike where trees are. -/
theorem decode {f g : α → Json} {reader other : Reader}
    (h : ∀ depth tree, Alike f g (reader depth tree) (other depth tree)) (text : List Char) :
    Alike f g (reader.decode text) (other.decode text) := by
  rw [Reader.decode, Reader.decode]
  refine (h _ _).bind fun result => ?_
  cases (Document.ofText text).trailing with
  | some bytes => exact .error _
  | none => exact .ok result

end Alike

/-- What is of the wrong kind is not read. -/
theorem Tree.alike_wrongKind {α β : Type} (f : α → β) (g : α → β) (tree : Tree) (wanted : String) :
    Alike f g (tree.wrongKind wanted) (tree.wrongKind wanted) := by
  rw [wrongKind]
  cases tree.found with
  | error fault => exact .error fault
  | ok found => exact .error _

theorem Reader.alike_string (depth : Nat) (tree : Tree) :
    Alike Json.string Json.string (Reader.string depth tree) (Reader.string depth tree) := by
  unfold Reader.string
  split
  · next value _ => exact .ok value
  · exact Tree.alike_wrongKind _ _ _ _

/-- A value that may be missing is read as it is. -/
theorem Reader.reads_option_any {levels : Nat} {value : Json} (h : Within levels value) :
    (Reader.option readAny).Reads levels value value := by
  intro depth tree hdepth htree
  unfold Reader.option
  split
  · cases htree
    rfl
  · exact reads_any h depth tree hdepth htree

/-- Any value, as it is written and with its keys sorted. -/
theorem Reader.alike_any (depth : Nat) (tree : Tree) :
    Alike id sortKeys (Reader.option readAny depth tree) (Reader.option .any depth tree) := by
  unfold Reader.option
  split
  · exact .ok Json.null
  · rw [Reader.any]
    cases readAny depth tree with
    | error fault => exact .error fault
    | ok value => exact .ok value

end Json

/-! ### Requests as they are written -/

namespace Request

/-- The fields of a request, if its parameters are left as they are written. -/
def writtenFields : List Field :=
  [.required "command" .string, .optional "params" readAny]

/-- How a request is read, if its parameters are left as they are written. -/
def writtenShape : Reader :=
  .record "CommandReq" writtenFields

/-- The plain form of a request as it is written: its parameters may be missing. -/
def written (request : Request) : Json :=
  .object (("command", .string request.command) ::
    (request.params.map fun value => ("params", value)).toList)

/-- Whether a line is a request with a command and with parameters, as these are written. -/
def IsWritten (line : List Char) (command : String) (params : Option Json) : Prop :=
  writtenShape.decode line = .ok (written ⟨command, params⟩)

/-- What is received of the parameters: each key once, and nothing of `null`. -/
def received : Option Json → Option Json
  | none | some .null => none
  | some value => some value.sortKeys

/-- The fields of a request. -/
private def receivedFields : List Field :=
  [.required "command" .string, .nullable "params" .any]

/-- The plain form of a request as it is received. -/
private def settled (request : Request) : Json :=
  .object [("command", .string request.command),
    ("params", (received request.params).getD .null)]

theorem received_eq_none_iff {params : Option Json} :
    received params = none ↔ params = none ∨ params = some .null := by
  match params with
  | none | some .null => simp [received]
  | some (.bool _) | some (.number _) | some (.string _) | some (.array _) | some (.object _) =>
    simp [received]

private theorem getD_received_some (value : Json) :
    (received (some value)).getD .null = value.sortKeys := by
  cases value <;> rfl

/-- The places of the two fields. -/
private def places (slots : Option String × Option Json) : Slots :=
  [slots.1.map .string, slots.2]

/-- The places of the two fields, where parameters are read with their keys sorted. -/
private def sortedPlaces (slots : Option String × Option Json) : Slots :=
  [slots.1.map .string, slots.2.map sortKeys]

variable {command : String} {params : Option Json} {line : List Char}

/-- Each member is put into the same place. -/
private theorem alike_readMember (depth : Nat) (key : String) (colon : Nat) (tree : Tree)
    (slots : Option String × Option Json) :
    Alike places sortedPlaces
      (Slots.readMember depth key colon tree writtenFields (places slots))
      (Slots.readMember depth key colon tree receivedFields (sortedPlaces slots)) := by
  obtain ⟨command, params⟩ := slots
  simp only [places, sortedPlaces, writtenFields, receivedFields, Slots.readMember, Field.required,
    Field.optional, Field.nullable]
  by_cases hcommand : "command" = key
  · rw [if_pos hcommand, if_pos hcommand]
    cases command with
    | some command => exact .error _
    | none =>
      exact (Reader.alike_string depth tree).bind fun command => .ok (some command, params)
  rw [if_neg hcommand, if_neg hcommand]
  by_cases hparams : "params" = key
  · rw [if_pos hparams, if_pos hparams]
    cases params with
    | some params => exact .error _
    | none =>
      refine Alike.bind (f := fun params => [some params])
        (g := fun params => [some (sortKeys params)]) ?_ fun params => .ok (command, some params)
      exact (Reader.alike_any depth tree).bind fun params => .ok params
  · rw [if_neg hparams, if_neg hparams]
    refine Alike.bind (f := fun _ : Unit => [params]) (g := fun _ => [params.map sortKeys]) ?_
      fun _ => .ok (command, params)
    refine Alike.bind (f := fun _ : Unit => []) (g := fun _ => []) ?_ fun _ => .ok ()
    exact (Alike.refl tree.skip).bind fun _ => .ok ()

/-- All members are put into the same places. -/
private theorem alike_readMembers (depth : Nat) (members : List Member)
    (slots : Option String × Option Json) :
    Alike places sortedPlaces
      (Slots.readMembers depth writtenFields (places slots) members)
      (Slots.readMembers depth receivedFields (sortedPlaces slots) members) := by
  induction members generalizing slots with
  | nil => exact .ok slots
  | cons member members ih =>
    obtain ⟨key, colon, tree⟩ := member
    rw [Slots.readMembers, Slots.readMembers]
    refine (Alike.refl key).bind fun key => ?_
    exact (alike_readMember depth key colon tree slots).bind ih

/-- What is made of the places. -/
private theorem alike_members (bytes : Nat) (slots : Option String × Option Json) :
    Alike written settled
      (do pure (.object (← Slots.members bytes writtenFields (places slots))))
      (do pure (.object (← Slots.members bytes receivedFields (sortedPlaces slots)))) := by
  obtain ⟨_ | command, params⟩ := slots
  · exact .error _
  · have hok := Alike.ok (f := written) (g := settled) ⟨command, params⟩
    cases params with
    | none => exact hok
    | some params =>
      rw [settled, getD_received_some] at hok
      exact hok

/-- The last item of an array is the parameters. -/
private theorem alike_readLast (depth : Nat) (closing : Closing) (short : Nat → Json.Fault)
    (items : List Tree) :
    Alike (fun params => [("params", params)]) (fun params => [("params", sortKeys params)])
      (readPositional depth closing short 1 [.optional "params" readAny] items)
      (readPositional depth closing short 1 [.nullable "params" .any] items) := by
  cases items with
  | nil =>
    cases closing with
    | closed stop => exact .error (short 1)
    | cut cut => exact .error cut.read
  | cons params rest =>
    refine (Reader.alike_any depth params).bind fun params => ?_
    refine Alike.bind (f := fun _ : Unit => []) (g := fun _ => []) ?_ fun _ => .ok params
    exact (Alike.refl (endPositional rest closing)).bind fun _ => .ok ()

/-- The items of an array are the two fields. -/
private theorem alike_readPositional (depth : Nat) (closing : Closing) (short : Nat → Json.Fault)
    (items : List Tree) :
    Alike written settled
      (do pure (.object (← readPositional depth closing short 0 writtenFields items)))
      (do pure (.object (← readPositional depth closing short 0 receivedFields items))) := by
  cases items with
  | nil =>
    cases closing with
    | closed stop => exact .error (short 0)
    | cut cut => exact .error cut.read
  | cons command rest =>
    refine Alike.bind
      (f := fun request : String × Json => [("command", .string request.1), ("params", request.2)])
      (g := fun request => [("command", .string request.1), ("params", sortKeys request.2)])
      ?_ fun request => ?_
    · refine (Reader.alike_string depth command).bind fun command => ?_
      exact (alike_readLast depth closing short rest).bind fun params => .ok (command, params)
    · have hok := Alike.ok (f := written) (g := settled) ⟨request.1, some request.2⟩
      rw [settled, getD_received_some] at hok
      exact hok

/-- **A request is received as it is written**, with the keys of its parameters sorted. -/
private theorem alike_shape (depth : Nat) (tree : Tree) :
    Alike written settled (writtenShape depth tree) (shape depth tree) := by
  unfold writtenShape shape Reader.record
  split
  · next peek items closing =>
    refine (Alike.refl (openLevel depth peek)).bind fun depth => ?_
    exact alike_readPositional depth closing _ items
  · unfold Reader.object
    split
    · next peek members stray closing _ =>
      refine (Alike.refl (openLevel depth peek)).bind fun depth => ?_
      refine (alike_readMembers depth members (none, none)).bind fun slots => ?_
      refine (Alike.refl closing.read).bind fun _ => ?_
      exact alike_members _ slots
    · exact Tree.alike_wrongKind _ _ _ _

theorem written_injective : Function.Injective written := by
  rintro ⟨command, params⟩ ⟨command', params'⟩ h
  cases params <;> cases params' <;> simp_all [written]

/-- A line is at most one request. -/
theorem IsWritten.unique {command' : String} {params' : Option Json}
    (h : IsWritten line command params) (h' : IsWritten line command' params') :
    command = command' ∧ params = params' := by
  have hwritten := Except.ok.inj (h.symm.trans h')
  exact Request.mk.inj (written_injective hwritten)

/-- What is received has the form of its request. -/
private theorem ofJson?_settled (request : Request) :
    ofJson? (settled request) = some ⟨request.command, received request.params⟩ := by
  match request with
  | ⟨_, none⟩ | ⟨_, some .null⟩ | ⟨_, some (.bool _)⟩ | ⟨_, some (.number _)⟩
  | ⟨_, some (.string _)⟩ | ⟨_, some (.array _)⟩ | ⟨_, some (.object _)⟩ => rfl

/-- A line is a request, and is received as such, or it is none. -/
theorem isWritten_or (line : List Char) :
    (∃ command params, IsWritten line command params ∧
      ofText line = .ok ⟨command, received params⟩) ∨
    (∀ command params, ¬ IsWritten line command params) ∧ ∃ fault, ofText line = .error fault := by
  have halike := Alike.decode alike_shape line
  rw [ofText]
  unfold IsWritten
  generalize writtenShape.decode line = asWritten, shape.decode line = asReceived at halike ⊢
  cases halike with
  | error fault =>
    refine .inr ⟨fun _ _ h => ?_, fault, rfl⟩
    cases h
  | ok request =>
    refine .inl ⟨request.command, request.params, rfl, ?_⟩
    simp only [Bind.bind, Except.bind, ofJson?_settled]
    rfl

/-- **A request is received** with its command and what is received of its parameters. -/
theorem ofText_of_isWritten (h : IsWritten line command params) :
    ofText line = .ok ⟨command, received params⟩ := by
  rcases isWritten_or line with ⟨command', params', h', htext⟩ | ⟨hnone, -⟩
  · obtain ⟨rfl, rfl⟩ := h.unique h'
    exact htext
  · exact absurd h (hnone command params)

/-- **What is received are the requests that are written**, with the keys of their parameters
sorted. -/
theorem ofText_eq_ok_iff {request : Request} :
    ofText line = .ok request ↔
      ∃ params, IsWritten line request.command params ∧ request.params = received params := by
  constructor
  · intro h
    rcases isWritten_or line with ⟨command, params, hwritten, htext⟩ | ⟨-, fault, hfault⟩
    · obtain rfl := Except.ok.inj (htext.symm.trans h)
      exact ⟨params, hwritten, rfl⟩
    · rw [hfault] at h
      cases h
  · rintro ⟨params, hwritten, hparams⟩
    rw [ofText_of_isWritten hwritten, ← hparams]

/-- **A line that spells an object is a request** with what this gives to the two fields. -/
theorem isWritten_of_spells {members : List (String × Json)}
    (hline : SpellsDocument (.object members) line)
    (hcommand : given "command" members = [.string command])
    (hparams : given "params" members = params.toList)
    (hwithin : ∀ value, params = some value → Within (depthLimit - 2) value) :
    IsWritten line command params := by
  -- Each field finds its one value, wherever that is among the members.
  have hfirst : Becomes (depthLimit - 2) members (.required "command" .string) none
      (some (.string command)) :=
    .read hcommand (Reader.reads_string command)
  have hsecond : Becomes (depthLimit - 2) members (.optional "params" readAny) none params := by
    cases params with
    | none => exact .kept hparams
    | some value => exact .read hparams (Reader.reads_option_any (hwithin value rfl))
  have hreads : writtenShape.Reads (depthLimit - 1) (.object members)
      (written ⟨command, params⟩) := by
    refine (reads_object (by decide) (.cons hfirst (.cons hsecond .nil)) fun _ => ?_).record
    cases params <;> rfl
  exact Reader.decode_of_spells hline hreads (by decide)

/-! ### Parameters with a source -/

/-- Whether parameters are an object that gives the source last as the given text. -/
def HoldsSource (params : Option Json) (source : String) : Prop :=
  ∃ members, params = some (.object members) ∧
    (given "source" members).getLast? = some (.string source)

/-- Of an object with its keys sorted, the source is a text exactly if the last that is given is. -/
private theorem source_sortKeys_iff {members : List (String × Json)} {source : String} :
    ((object members).sortKeys.member? "source").bind string? = some source ↔
      (given "source" members).getLast? = some (.string source) := by
  rw [sortKeys, member?_object, given_sortMembers List.Pairwise.nil]
  cases (given "source" members).getLast? with
  | none => simp
  | some value => cases value <;> simp [sortKeys, string?]

/-- What is received holds a source exactly if what is written does. -/
private theorem member?_source_iff {value : Json} {source : String}
    (h : received params = some value) :
    (value.member? "source").bind string? = some source ↔ HoldsSource params source := by
  match params with
  | none | some .null => cases h
  | some (.object members) =>
    obtain rfl := Option.some.inj h
    rw [source_sortKeys_iff]
    simp [HoldsSource]
  | some (.bool _) | some (.number _) | some (.string _) | some (.array _) =>
    obtain rfl := Option.some.inj h
    simp [HoldsSource, sortKeys, member?]

/-- Parameters that hold a source are received. -/
private theorem HoldsSource.received_ne_none {source : String} (h : HoldsSource params source) :
    received params ≠ none := by
  obtain ⟨members, rfl, -⟩ := h
  exact Option.some_ne_none _

/-- A request has a source exactly if its parameters hold one. -/
theorem source_eq_ok_iff {text : List Char} :
    source ⟨command, received params⟩ = .ok text ↔
      ∃ source, HoldsSource params source ∧ source.toList = text := by
  rw [source]
  cases hreceived : received params with
  | none =>
    have hnone : ∀ source, ¬ HoldsSource params source := fun _ h => h.received_ne_none hreceived
    simp [hnone, throw, throwThe, MonadExceptOf.throw]
  | some value =>
    simp only [← member?_source_iff hreceived]
    cases (value.member? "source").bind string? <;>
      simp [throw, throwThe, MonadExceptOf.throw, pure, Except.pure]

/-- A request has no source if it has no parameters, or these hold none. -/
theorem source_eq_error_iff {refusal : Refusal} :
    source ⟨command, received params⟩ = .error refusal ↔
      received params = none ∧ refusal = .missingParams ∨
      received params ≠ none ∧ (∀ source, ¬ HoldsSource params source) ∧
        refusal = .missingSource := by
  rw [source]
  cases hreceived : received params with
  | none => simp [throw, throwThe, MonadExceptOf.throw, eq_comm]
  | some value =>
    simp only [← member?_source_iff hreceived]
    cases (value.member? "source").bind string? <;>
      simp [throw, throwThe, MonadExceptOf.throw, pure, Except.pure, eq_comm]

end Request

end SourceOutline
