import SourceOutline.Files
import SourceOutline.Path

/-!
# Collecting Python sources

`collect` finds the Python sources below a directory: all entries with a name for Python source,
other than directories, in the directory and in those inside it, as deep as they go. A directory
with an excluded name is passed over with all that is in it, be it the root or one below it.

The paths are the root as it is written with the names behind it. They come in ascending order by
their names, one after the other. So a directory's entries stay together, and the order in which a
file system lists them does not matter.
-/

namespace SourceOutline

namespace Listing

mutual

/-- The names that lead to the Python sources below a directory. -/
def pythonSources (excluded : List String) : List (String × Listing) → List (List String)
  | [] => []
  | (name, entry) :: rest =>
    sourcesOf excluded name entry ++ pythonSources excluded rest

/-- The names that lead to the Python sources of an entry, which has the given name. -/
def sourcesOf (excluded : List String) (name : String) : Listing → List (List String)
  | .directory entries =>
    if excluded.contains name then []
    else (pythonSources excluded entries).map (name :: ·)
  | _ => if Path.isPythonName name then [[name]] else []

end

end Listing

/-- Sorts names in ascending order, the first name first. -/
def sortNames (paths : List (List String)) : List (List String) :=
  paths.mergeSort fun first second => !second.lex first

/-- The path of names below a directory. -/
def pathBelow (root : String) (names : List String) : String :=
  names.foldl Path.join root

/-- Whether a path ends with an excluded name. -/
def isExcluded (excluded : List String) (path : String) : Bool :=
  match Path.lastName? path with
  | some name => excluded.contains name
  | none => false

/-- The Python sources below a root that leads to the given listing. A root that is a file is taken
whatever its name, and one that is excluded need not even be there. -/
def sourcesBelow (excluded : List String) (root : String) (listing : Option Listing) :
    Except FileFault (List String) :=
  match listing with
  | some .file => pure [root]
  | some (.directory entries) =>
    if isExcluded excluded root then pure []
    else pure ((sortNames (Listing.pythonSources excluded entries)).map (pathBelow root))
  | _ => if isExcluded excluded root then pure [] else throw (.unreadableDirectory root)

namespace FileAccess

variable {m : Type → Type} [Monad m]

/-- Collects the Python sources below a root. -/
def collect (files : FileAccess m) (excluded : List String) (root : String) :
    m (Except FileFault (List String)) := do
  pure (sourcesBelow excluded root (← files.listing? excluded root))

end FileAccess

end SourceOutline
