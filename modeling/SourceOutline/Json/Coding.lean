import SourceOutline.Json.Reader
import SourceOutline.Json.Text

/-!
# Types that are written as JSON

A `Coding` says how the values of a type are written as JSON and how they are read back: which
texts are of the right shape, and which value the plain form of such a text stands for.
-/

namespace SourceOutline.Json

/-- How the values of a type are written and read. -/
structure Coding (α : Type) where
  /-- What the type is called in messages. -/
  name : String
  /-- The plain form of a value. -/
  write : α → Json
  /-- Reads a text of the right shape as a plain form. -/
  shape : Reader
  /-- The value of a plain form. -/
  read? : Json → Option α

namespace Coding

variable {α : Type}

/-- The text of a value. -/
def encode (coding : Coding α) (layout : Layout) (value : α) : String :=
  render layout (coding.write value)

/-- Reads a text. -/
def decode (coding : Coding α) (text : List Char) : Except Fault α := do
  let plain ← coding.shape.decode text
  match coding.read? plain with
  | some value => pure value
  | none => throw ⟨.noShape coding.name, 0⟩

end Coding

/-- A field that must be there. -/
def Field.required (key : String) (reader : Reader) : Field :=
  ⟨key, .required, reader⟩

/-- A field that may be `null`, and is `null` where it is not there. -/
def Field.nullable (key : String) (reader : Reader) : Field :=
  ⟨key, .nullable, .option reader⟩

/-- A field that may be `null` and may also be left out, which is something else. -/
def Field.optional (key : String) (reader : Reader) : Field :=
  ⟨key, .optional, .option reader⟩

end SourceOutline.Json
