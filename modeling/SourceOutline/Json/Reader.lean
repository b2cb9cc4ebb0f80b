import SourceOutline.Json.Tree

/-!
# Reading JSON as a value of a shape

A `Reader` reads a tree as a value of one shape. It answers with that value in its plain form, an
object with the members of the shape in their order, or with the first fault on the way through the
text from left to right. Readers for larger shapes are built from those for their parts.

A record is written as an object, whose other members are passed over, or as an array of exactly its
fields. A member that is not there may be taken for `null` or be left out for good, as its
`Presence` says.
-/

namespace SourceOutline.Json

/-- Reads a value of a shape, where `depth` is one more than the levels that may be opened. -/
abbrev Reader := (depth : Nat) → Tree → Except Fault Json

/-- The depth of a whole text. -/
def depthLimit : Nat := 128

namespace Tree

/-- What a value is, for one who wanted another, and the number of bytes read to know it. An array
or an object is known by its bracket, which is not taken for that. -/
def found : Tree → Except Fault (Found × Nat)
  | leaf _ (.error fault) _ => .error fault
  | leaf _ (.ok value) stop =>
    match value with
    | .bool value => .ok (.bool value, stop)
    | .number value => .ok (.number value, stop)
    | .string value => .ok (.string value, stop)
    | _ => .ok (.null, stop)
  | array peek .. => .ok (.array, peek - 1)
  | object peek .. => .ok (.object, peek - 1)
  | broken _ _ cut => .error cut.read

/-- The fault that a value is of another kind. -/
def wrongKind {α : Type} (tree : Tree) (wanted : String) : Except Fault α := do
  let (found, bytes) ← tree.found
  throw ⟨.wrongKind found wanted, bytes⟩

/-- Passes over a value. -/
def skip (tree : Tree) : Except Fault Unit :=
  match tree.cut? with
  | some cut => throw cut.skipped
  | none => pure ()

/-- Where a value ends. -/
def stop : Tree → Nat
  | leaf _ _ stop => stop
  | array _ _ (.closed stop) | object _ _ _ (.closed stop) => stop
  | tree => tree.peek

end Tree

/-- The end of an array or an object that was read up to there. -/
def Closing.read : Closing → Except Fault Unit
  | closed _ => pure ()
  | cut found => throw found.read

/-- Opens a level, if that is still possible. -/
def openLevel (depth peek : Nat) : Except Fault Nat :=
  if depth ≤ 1 then throw ⟨.tooDeep, peek⟩ else pure (depth - 1)

/-! ### Any value -/

mutual

/-- Reads any value. -/
def readAny (depth : Nat) : Tree → Except Fault Json
  | .leaf _ value _ => value
  | .broken _ _ cut => throw cut.read
  | .array peek items closing => do
    let depth ← openLevel depth peek
    let values ← readAnyItems depth items
    closing.read
    pure (.array values)
  | .object peek members _ closing => do
    let depth ← openLevel depth peek
    let values ← readAnyMembers depth members
    closing.read
    pure (.object values)

/-- Reads items. -/
def readAnyItems (depth : Nat) : List Tree → Except Fault (List Json)
  | [] => pure []
  | item :: rest => do
    let value ← readAny depth item
    pure (value :: (← readAnyItems depth rest))

/-- Reads members. -/
def readAnyMembers (depth : Nat) : List Member → Except Fault (List (String × Json))
  | [] => pure []
  | .mk key _ value :: rest => do
    let key ← key
    let value ← readAny depth value
    pure ((key, value) :: (← readAnyMembers depth rest))

end

mutual

/-- A value as a tree that has no places. -/
def Tree.ofJson : Json → Tree
  | .array items => .array 0 (ofItems items) (.closed 0)
  | .object members => .object 0 (ofMembers members) none (.closed 0)
  | .null => .leaf 0 (.ok .null) 0
  | .bool value => .leaf 0 (.ok (.bool value)) 0
  | .number value => .leaf 0 (.ok (.number value)) 0
  | .string value => .leaf 0 (.ok (.string value)) 0

/-- Items as trees. -/
def Tree.ofItems : List Json → List Tree
  | [] => []
  | item :: rest => ofJson item :: ofItems rest

/-- Members as trees. -/
def Tree.ofMembers : List (String × Json) → List Member
  | [] => []
  | (key, value) :: rest => .mk (.ok key) 0 (ofJson value) :: ofMembers rest

end

namespace Reader

/-- Any value. Keys are sorted, and of repeated ones the last counts. -/
def any : Reader := fun depth tree =>
  (readAny depth tree).map sortKeys

/-! ### Values without parts -/

/-- A string. -/
def string : Reader := fun _ tree =>
  match tree with
  | .leaf _ (.ok (.string value)) _ => pure (.string value)
  | _ => tree.wrongKind "a string"

/-- A truth value. -/
def boolean : Reader := fun _ tree =>
  match tree with
  | .leaf _ (.ok (.bool value)) _ => pure (.bool value)
  | _ => tree.wrongKind "a boolean"

/-- A whole number of 64 bits without a sign. -/
def natural : Reader := fun _ tree =>
  match tree with
  | .leaf _ (.ok (.number (.whole value))) stop =>
    if 0 ≤ value && value ≤ maxWhole then pure (.number (.whole value))
    else throw ⟨.wrongValue (.number (.whole value)) "usize", stop⟩
  | _ => tree.wrongKind "usize"

/-- The value `null`. -/
def nothing : Reader := fun _ tree =>
  match tree with
  | .leaf _ (.ok .null) _ => pure .null
  | _ => tree.wrongKind "unit"

/-- `null`, or a value of another shape. -/
def option (reader : Reader) : Reader := fun depth tree =>
  match tree with
  | .leaf _ (.ok .null) _ => pure .null
  | _ => reader depth tree

/-! ### Lists and words -/

/-- A list of values of one shape. -/
def list (reader : Reader) : Reader := fun depth tree =>
  match tree with
  | .array peek items closing => do
    let depth ← openLevel depth peek
    let values ← items.mapM (reader depth)
    closing.read
    pure (.array values)
  | _ => tree.wrongKind "a sequence"

/-- Whether a string is one of some words. -/
def checkWord (wanted : String) (words : List String) (word : String) (bytes : Nat) :
    Except Fault Json :=
  if words.contains word then pure (.string word) else throw ⟨.wrongWord word wanted, bytes⟩

/-- The end of an object that is a word, behind its only member. -/
def endWord (value : Tree) (rest : List Member) (closing : Closing) : Except Fault Unit :=
  match rest, closing with
  | [], .closed _ => pure ()
  | [], .cut ⟨⟨.eofInObject, bytes⟩, _⟩ => throw ⟨.eofInObject, bytes⟩
  | _, _ => throw ⟨.expectedValue, value.stop⟩

/-- One of some words: a string, or an object with the word as its only key and the value `null`.
Of a value that begins otherwise only the beginning is read. -/
def word (wanted : String) (words : List String) : Reader := fun depth tree =>
  match tree with
  | .broken peek true _ => throw ⟨.expectedValue, peek⟩
  | .broken _ false cut => throw cut.read
  | .leaf _ (.error fault) _ => throw fault
  | .leaf _ (.ok (.string word)) stop => checkWord wanted words word stop
  | .leaf peek (.ok _) _ | .array peek _ _ => throw ⟨.expectedValue, peek⟩
  | .object peek members stray closing => do
    let depth ← openLevel depth peek
    match members, stray, closing with
    | [], some value, _ => value.wrongKind "variant identifier"
    | [], none, .closed stop => throw ⟨.expectedValue, stop⟩
    | [], none, .cut cut => throw cut.read
    | .mk key colon value :: rest, _, _ =>
      let result ← checkWord wanted words (← key) colon
      discard (nothing depth value)
      endWord value rest closing
      pure result

end Reader

/-! ### Records -/

/-- What it means that a member of a record is not there. -/
inductive Presence where
  /-- It must be there. -/
  | required
  /-- It is taken for `null`. -/
  | nullable
  /-- It is left out. -/
  | optional
  deriving Repr, DecidableEq

/-- A field of a record. -/
structure Field where
  key : String
  presence : Presence
  reader : Reader

/-- The values of fields that were read so far, one place for each field. -/
abbrev Slots := List (Option Json)

namespace Slots

/-- The members of a record whose fields were read, or the fault that one is not there that must
be. -/
def members (bytes : Nat) : List Field → Slots → Except Fault (List (String × Json))
  | field :: fields, slot :: slots =>
    match slot, field.presence with
    | some value, _ => do pure ((field.key, value) :: (← members bytes fields slots))
    | none, .required => throw ⟨.missingKey field.key, bytes⟩
    | none, .nullable => do pure ((field.key, .null) :: (← members bytes fields slots))
    | none, .optional => members bytes fields slots
  | _, _ => pure []

/-- Reads a member into the place of its field, which must be free. A member of no field is passed
over. -/
def readMember (depth : Nat) (key : String) (colon : Nat) (value : Tree) :
    List Field → Slots → Except Fault Slots
  | field :: fields, slot :: slots =>
    if field.key = key then
      match slot with
      | some _ => throw ⟨.repeatedKey key, colon⟩
      | none => do pure (some (← field.reader depth value) :: slots)
    else do pure (slot :: (← readMember depth key colon value fields slots))
  | _, slots => do
    value.skip
    pure slots

/-- Reads members into the places of their fields. -/
def readMembers (depth : Nat) (fields : List Field) (slots : Slots) :
    List Member → Except Fault Slots
  | [] => pure slots
  | .mk key colon value :: rest => do
    let slots ← readMember depth (← key) colon value fields slots
    readMembers depth fields slots rest

end Slots

/-- The end of an array that is a record, behind its last field. Anything else there is text too
many. -/
def endPositional (rest : List Tree) (closing : Closing) : Except Fault Unit :=
  match rest, closing with
  | extra :: _, _ => throw ⟨.trailingText, extra.peek⟩
  | [], .closed _ => pure ()
  | [], .cut ⟨⟨.expectedArrayComma, bytes⟩, _⟩ => throw ⟨.trailingText, bytes⟩
  | [], .cut cut => throw cut.read

/-- The fault that an array has too few items to be a record. -/
def tooShort (name : String) (fields found stop : Nat) : Fault :=
  let elements := if fields = 1 then " element" else " elements"
  ⟨.wrongLength found ("struct " ++ name ++ " with " ++ toString fields ++ elements), stop⟩

/-- Reads the items of an array as the fields in their order. There must be one for each. -/
def readPositional (depth : Nat) (closing : Closing) (short : Nat → Fault) (count : Nat) :
    List Field → List Tree → Except Fault (List (String × Json))
  | [], rest => do
    endPositional rest closing
    pure []
  | _ :: _, [] => do
    closing.read
    throw (short count)
  | field :: fields, item :: items => do
    let value ← field.reader depth item
    pure ((field.key, value) :: (← readPositional depth closing short (count + 1) fields items))

namespace Reader

/-- A record as an object. -/
def object (name : String) (fields : List Field) : Reader := fun depth tree =>
  match tree with
  | .object peek members _ closing => do
    let depth ← openLevel depth peek
    let slots ← Slots.readMembers depth fields (fields.map fun _ => none) members
    closing.read
    pure (.object (← Slots.members tree.stop fields slots))
  | _ => tree.wrongKind ("struct " ++ name)

/-- A record, as an object or as an array. -/
def record (name : String) (fields : List Field) : Reader := fun depth tree =>
  match tree with
  | .array peek items closing => do
    let depth ← openLevel depth peek
    let short := fun count => tooShort name fields.length count tree.stop
    pure (.object (← readPositional depth closing short 0 fields items))
  | _ => object name fields depth tree

/-- The value of the first shape that fits. -/
def firstOf (tree : Tree) : List Reader → Option Json
  | [] => none
  | reader :: rest =>
    match reader depthLimit tree with
    | .ok value => some value
    | .error _ => firstOf tree rest

/-- A value of one of some shapes. It is read as any value first, so that only the text as a whole
can be at fault. -/
def oneOf (name : String) (readers : List Reader) : Reader := fun depth tree => do
  let value ← readAny depth tree
  match firstOf (.ofJson value) readers with
  | some value => pure value
  | none => throw ⟨.noShape name, tree.stop⟩

/-- Reads a whole text. Nothing but blanks may follow the value. -/
def decode (reader : Reader) (text : List Char) : Except Fault Json := do
  let document := Document.ofText text
  let value ← reader depthLimit document.root
  match document.trailing with
  | some bytes => throw ⟨.trailingText, bytes⟩
  | none => pure value

end Reader

/-- Reads a text as any value. -/
def parse (text : List Char) : Except Fault Json :=
  Reader.decode readAny text

end SourceOutline.Json
