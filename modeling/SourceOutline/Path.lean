import SourceOutline.Text.Split

/-!
# Paths

A path is text with slashes between names. `Path.segments` is what stands between them as it is
written, and `Path.names` leaves out what changes nothing: empty segments, and single points for the
directory that one is in already.

A file counts as Python source by the name at the end of its path: what stands behind the last point
must be `py` or `pyi`, and something must stand before that point.
-/

namespace SourceOutline.Path

/-- What stands between the slashes of a path. -/
def segments (path : String) : List String :=
  (Text.split '/' path.toList).map String.ofList

/-- Whether a segment leads from a directory to itself. -/
def staysHere (segment : String) : Bool :=
  segment == "" || segment == "."

/-- The segments of a path that lead somewhere else. -/
def names (path : String) : List String :=
  (segments path).filter fun segment => !staysHere segment

/-- Whether a path starts at the top of the file tree. -/
def isAbsolute (path : String) : Bool :=
  path.toList.head? == some '/'

/-- The name that a path ends with. There is none where it ends by going up. -/
def lastName? (path : String) : Option String :=
  match (names path).getLast? with
  | some name => if name = ".." then none else some name
  | none => none

/-- What stands behind the last point of a name, if something stands before that point. -/
def extension? (name : String) : Option String :=
  let reversed := name.toList.reverse
  match reversed.dropWhile (· != '.') with
  | _ :: _ :: _ => some (String.ofList (reversed.takeWhile (· != '.')).reverse)
  | _ => none

/-- The extensions of Python source. -/
def pythonExtensions : List String :=
  ["py", "pyi"]

/-- Whether a name is one for Python source. -/
def isPythonName (name : String) : Bool :=
  match extension? name with
  | some extension => pythonExtensions.contains extension
  | none => false

/-- Whether a path is one of Python source. -/
def isPython (path : String) : Bool :=
  match lastName? path with
  | some name => isPythonName name
  | none => false

/-- The path of a name in a directory. -/
def join (directory name : String) : String :=
  if directory = "" || directory.toList.getLast? == some '/' then directory ++ name
  else directory ++ "/" ++ name

end SourceOutline.Path
