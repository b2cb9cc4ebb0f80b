/-!
# Access to files

What the program has to know about files: what a path leads to, and which bytes a file holds. A
`FileAccess` answers these two questions, and everything that is done with files is written in terms
of it. Whether the answers come from a real file system or from a `FileTree` makes no difference.

Where a path leads to a directory, the answer is the whole `Listing` of what is below it, in
whatever order. Links below it are not followed.
-/

namespace SourceOutline

/-- What a path leads to. -/
inductive Listing where
  | file
  /-- A link that is not followed. -/
  | link
  | directory (entries : List (String × Listing))
  deriving Repr, Inhabited

/-- Answers questions about files. -/
structure FileAccess (m : Type → Type) where
  /-- What a path leads to, where links on the way and at its end are followed. Directories below it
  that have one of the given names need not be looked into. -/
  listing? : (skipped : List String) → (path : String) → m (Option Listing)
  /-- The bytes of the file that a path leads to. -/
  bytes? : (path : String) → m (Option ByteArray)

/-- What can be wrong with files. -/
inductive FileFault where
  | unreadableInput
  | unreadableFile (path : String)
  | unreadableDirectory (path : String)
  | unreadableConfig (path : String)
  /-- A configuration that says something it must not. -/
  | invalidConfig
  /-- The same, in the file with the given path. -/
  | invalidConfigFile (path : String)
  /-- Not a single file could be read. -/
  | noSources
  deriving Repr, DecidableEq

/-- The wording of each fault. -/
def FileFault.message : FileFault → String
  | unreadableInput => "Failed to read source from stdin"
  | unreadableFile path => "Failed to read file " ++ path
  | unreadableDirectory path => "Failed to read directory " ++ path
  | unreadableConfig path => "Cannot read config " ++ path
  | invalidConfig => "Invalid pysift configuration"
  | invalidConfigFile path => "In config file " ++ path
  | noSources => "No readable Python sources among the given inputs"

namespace FileAccess

variable {m : Type → Type} [Monad m]

/-- The text of the file that a path leads to, if it is in UTF-8. -/
def text? (files : FileAccess m) (path : String) : m (Option String) := do
  match ← files.bytes? path with
  | some bytes => pure (String.fromUTF8? bytes)
  | none => pure none

/-- Whether a path leads to a file. -/
def isFile (files : FileAccess m) (path : String) : m Bool := do
  match ← files.listing? [] path with
  | some .file => pure true
  | _ => pure false

end FileAccess

end SourceOutline
