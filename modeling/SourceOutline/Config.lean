import SourceOutline.Files
import SourceOutline.Toml.Document

/-!
# Configuration

The settings of the program, all of which have a value when none is given: how reports are written,
what is passed over when sources are collected, and where the program listens.

They are read from TOML text with a table for each of these three. A table may also be written as
an array of its values in their order, of which those at the end may be missing. What is not set
keeps its value, whatever else is set. A key that means nothing is a fault, and so is a value of
another type or out of its range.
-/

namespace SourceOutline

namespace Toml

/-- The values that a section gives to its keys: those of a table, which must have no other keys, or
the items of an array, in the order of the keys. -/
def Value.section? (keys : List String) : Value → Option Table
  | table members => if members.all fun member => keys.contains member.1 then some members else none
  | array items => some (keys.zip items)
  | _ => none

/-- The value of a key, or the given one where there is none. -/
def Table.getOr {α : Type} (table : Table) (key : String) (default : α)
    (read? : Value → Option α) : Option α :=
  match table.find? key with
  | some value => read? value
  | none => some default

/-- The truth value, where the value is one. -/
def Value.boolean? : Value → Option Bool
  | boolean value => some value
  | _ => none

/-- The natural number, where the value is one. -/
def Value.natural? : Value → Option Nat
  | integer (.ofNat value) => some value
  | _ => none

/-- The number of a port, where the value is one. -/
def Value.port? (value : Value) : Option Nat := do
  let port ← value.natural?
  if port < UInt16.size then some port else none

/-- The text, where the value is one. -/
def Value.string? : Value → Option String
  | string text => some text
  | _ => none

/-- The texts, where the value is an array of them. -/
def Value.strings? : Value → Option (List String)
  | array items => items.mapM Value.string?
  | _ => none

end Toml

/-! ### Settings -/

/-- How reports are written. -/
structure OutputConfig where
  /-- Whether they are laid out over several lines. -/
  pretty : Bool := true
  /-- The number of blanks for each level of nesting. -/
  indent : Nat := 4
  deriving Repr, DecidableEq

/-- How sources are collected and analysed. -/
structure ScanConfig where
  /-- The names of directories that are passed over. -/
  exclude : List String := [".git", "__pycache__", ".venv", "venv", "node_modules"]
  /-- The number of workers; with zero the program chooses itself. No result depends on it. -/
  workers : Nat := 0
  deriving Repr, DecidableEq

/-- Where the program listens. -/
structure ServerConfig where
  port : Nat := 7878
  deriving Repr, DecidableEq

/-- All settings. -/
structure Config where
  output : OutputConfig := {}
  scan : ScanConfig := {}
  server : ServerConfig := {}
  deriving Repr, DecidableEq

/-! ### Reading -/

/-- The settings for reports that a section stands for. -/
def OutputConfig.ofToml? (value : Toml.Value) : Option OutputConfig := do
  let table ← value.section? ["pretty", "indent"]
  let default : OutputConfig := {}
  let pretty ← table.getOr "pretty" default.pretty Toml.Value.boolean?
  let indent ← table.getOr "indent" default.indent Toml.Value.natural?
  pure { pretty, indent }

/-- The settings for sources that a section stands for. -/
def ScanConfig.ofToml? (value : Toml.Value) : Option ScanConfig := do
  let table ← value.section? ["exclude", "workers"]
  let default : ScanConfig := {}
  let exclude ← table.getOr "exclude" default.exclude Toml.Value.strings?
  let workers ← table.getOr "workers" default.workers Toml.Value.natural?
  pure { exclude, workers }

/-- The settings for listening that a section stands for. -/
def ServerConfig.ofToml? (value : Toml.Value) : Option ServerConfig := do
  let table ← value.section? ["port"]
  let default : ServerConfig := {}
  let port ← table.getOr "port" default.port Toml.Value.port?
  pure { port }

namespace Config

/-- The settings that a document stands for. -/
def ofTable? (document : Toml.Table) : Option Config := do
  let table ← (Toml.Value.table document).section? ["output", "scan", "server"]
  let output ← table.getOr "output" {} OutputConfig.ofToml?
  let scan ← table.getOr "scan" {} ScanConfig.ofToml?
  let server ← table.getOr "server" {} ServerConfig.ofToml?
  pure { output, scan, server }

/-- The settings that a text stands for. -/
def ofText (text : List Char) : Except FileFault Config :=
  match (Toml.Document.parse? text).bind ofTable? with
  | some config => pure config
  | none => throw .invalidConfig

/-- The usual name of the file with the settings. -/
def defaultPath : String := "pysift.toml"

variable {m : Type → Type} [Monad m]

/-- Reads the settings from the file with the given path, which must be there. -/
def loadFile (files : FileAccess m) (path : String) : m (Except FileFault Config) := do
  match ← files.text? path with
  | none => pure (.error (.unreadableConfig path))
  | some text =>
    match ofText text.toList with
    | .ok config => pure (.ok config)
    | .error _ => pure (.error (.invalidConfigFile path))

/-- Reads the settings from the file that is asked for. Where none is, they are read from the file
with the usual name in the working directory, if there is one. -/
def load (files : FileAccess m) (asked : Option String) : m (Except FileFault Config) := do
  match asked with
  | some path => loadFile files path
  | none =>
    if ← files.isFile defaultPath then loadFile files defaultPath else pure (.ok {})

end Config

end SourceOutline
