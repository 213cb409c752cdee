import Toolpath.Text.Split

/-!
# Paths

The parts of the standard library's `Path` that files need. A path is a text of names with slashes
between them. Empty names and single dots name nothing.

* `Path.names`: the components of a path.
* `Path.fileName?`, `Path.extension?`: `file_name`, and `extension`, what follows the last dot of the last
  name.
-/

namespace Toolpath.Path

/-- The pieces of a path between slashes. -/
def pieces (path : String) : List String := (Text.splitOn '/' path.toList).map String.ofList

/-- Whether a piece names nothing. -/
def isIdle (piece : String) : Bool := piece = "" || piece = "."

/-- The names of a path. -/
def names (path : String) : List String := (pieces path).filter fun piece => !isIdle piece

/-- Whether a path starts at the root of the disk. -/
def isAbsolute (path : String) : Bool := path.toList.head? = some '/'

/-- Whether a path ends with a slash, and so can only be a directory. -/
def endsWithSlash (path : String) : Bool := path.toList.getLast? = some '/'

/-- A path without the slashes at its end; one slash stays of a path that has nothing else. -/
def withoutSlash (path : String) : String :=
  let kept := (path.toList.reverse.dropWhile (· = '/')).reverse
  String.ofList (if kept = [] then path.toList.take 1 else kept)

/-- The last name of a path; two dots are no name. -/
def fileName? (path : String) : Option String :=
  match (names path).getLast? with
  | some ".." => none
  | last => last

/-- What follows the last dot of a name, unless the name starts with it. -/
def extensionOf? (name : List Char) : Option (List Char) :=
  let after := name.reverse.takeWhile (· ≠ '.')
  if after.length + 1 < name.length then some after.reverse else none

/-- The extension of a path. -/
def extension? (path : String) : Option String :=
  ((fileName? path).bind fun name => extensionOf? name.toList).map String.ofList

end Toolpath.Path
