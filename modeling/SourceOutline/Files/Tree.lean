import SourceOutline.Files
import SourceOutline.Path

/-!
# File trees

A `FileTree` is a file system held in memory: directories, files and symbolic links below one top
directory, and the working directory, in which relative paths start.

A path is walked segment by segment. A link is replaced by the path it holds, which starts in the
directory of the link, unless it is absolute; only so many links are followed on one walk, so it
ends where links lead in a circle.
-/

namespace SourceOutline

namespace FileTree

/-- What a name in a directory stands for. -/
inductive Entry where
  | file (content : ByteArray)
  | directory (entries : List (String × Entry))
  | link (target : String)
  deriving Inhabited

/-- The entry with a name. -/
def find? (name : String) (entries : List (String × Entry)) : Option Entry :=
  (entries.find? fun entry => entry.1 == name).map (·.2)

/-- Puts an entry in the place of the one with its name, or at the end. -/
def put (name : String) (entry : Entry) : List (String × Entry) → List (String × Entry)
  | [] => [(name, entry)]
  | (n, e) :: rest => if n = name then (name, entry) :: rest else (n, e) :: put name entry rest

namespace Entry

mutual

/-- What an entry looks like without the content of files. -/
def listing : Entry → Listing
  | file _ => .file
  | directory entries => .directory (listings entries)
  | link _ => .link

/-- What entries look like without the content of files. -/
def listings : List (String × Entry) → List (String × Listing)
  | [] => []
  | (name, entry) :: rest => (name, listing entry) :: listings rest

end

/-- The entries of a directory; anything else has none. -/
def entries : Entry → List (String × Entry)
  | directory entries => entries
  | _ => []

/-- Puts an entry at a path of names, with the directories on the way. A directory that is put where
there is one already changes nothing. -/
def insert (new : Entry) : (names : List String) → Entry → Entry
  | [], old =>
    match new, old with
    | directory [], directory entries => directory entries
    | _, _ => new
  | name :: names, old =>
    let inner := (find? name old.entries).getD (directory [])
    directory (put name (insert new names inner) old.entries)

end Entry

end FileTree

/-- A file system in memory. -/
structure FileTree where
  top : FileTree.Entry := .directory []
  /-- The names that lead from the top to the working directory. -/
  working : List String := []

namespace FileTree

/-! ### Walking -/

/-- A place in a tree: what is there, and the directories around it, the innermost first. -/
structure Place where
  here : Entry
  around : List Entry := []

/-- Where a segment leads from a place, which must be a directory. A link is not followed. -/
def Place.step? (place : Place) (segment : String) : Option Place :=
  match place.here with
  | .directory entries =>
    if Path.staysHere segment then some place
    else if segment = ".." then
      match place.around with
      | [] => some place
      | outer :: others => some ⟨outer, others⟩
    else (find? segment entries).map fun entry => ⟨entry, place.here :: place.around⟩
  | _ => none

/-- Walks along segments, where `follow` says where a link leads and goes on from there. -/
def walkWith (follow : (directory : Place) → (target : String) → List String → Option Place) :
    Place → (segments : List String) → Option Place
  | place, [] => some place
  | place, segment :: rest => do
    let next ← place.step? segment
    match next.here with
    | .link target => follow place target rest
    | _ => walkWith follow next rest

/-- Walks along segments and follows at most a number of links. -/
def walk (top : Entry) : (links : Nat) → Place → (segments : List String) → Option Place
  | 0 => walkWith fun _ _ _ => none
  | links + 1 => walkWith fun directory target rest =>
    let start := if Path.isAbsolute target then ⟨top, []⟩ else directory
    walk top links start (Path.segments target ++ rest)

/-- The number of links that are followed on one walk. -/
def linkLimit : Nat := 40

/-- The place that a path leads to. The empty path leads nowhere. -/
def place? (tree : FileTree) (path : String) : Option Place :=
  if path = "" then none
  else if Path.isAbsolute path then walk tree.top linkLimit ⟨tree.top, []⟩ (Path.segments path)
  else walk tree.top linkLimit ⟨tree.top, []⟩ (tree.working ++ Path.segments path)

/-- What a path leads to. -/
def resolve? (tree : FileTree) (path : String) : Option Entry :=
  (tree.place? path).map (·.here)

/-- The bytes of the file that a path leads to. -/
def content? (tree : FileTree) (path : String) : Option ByteArray :=
  match tree.resolve? path with
  | some (.file content) => some content
  | _ => none

/-- Access to the files of a tree. -/
def access (tree : FileTree) : FileAccess Id where
  listing? _ path := (tree.resolve? path).map Entry.listing
  bytes? path := tree.content? path

/-! ### Building -/

/-- Puts an entry at a path below the working directory, with the directories on the way. -/
def insert (path : String) (entry : Entry) (tree : FileTree) : FileTree :=
  { tree with top := entry.insert (tree.working ++ Path.names path) tree.top }

end FileTree

end SourceOutline
