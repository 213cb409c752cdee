import Toolpath.Files.Path

/-!
# Files

The file system under `Config.load_from_file`, `Config.save_to_file` and `Program.from_file`:
directories and files below one root, and the working directory from which relative paths lead on. There
are no links and no permissions, and nothing bounds names or contents.

* `Files.resolve`: where an absolute or a relative path leads.
* `Files.read`, `Files.readText`, `Files.write`: the calls `read`, `read_to_string` and `write` of the standard library.
* `Files.makeDirectory`: its `create_dir`.
* `Files.makeParents`, `Files.makeDirectories`: its `create_dir_all`, of the directory that a path is in.
* `FileError`: why a call fails, with the system's message.
-/

namespace Toolpath

/-- Why a call fails. -/
inductive FileError where
  | notFound
  | exists
  | notDirectory
  | isDirectory
  | notText
  /-- A failure that the system words itself. -/
  | other (message : String)
deriving DecidableEq, Repr

/-- The message of a file error. -/
def FileError.message : FileError → String
  | .notFound => "No such file or directory (os error 2)"
  | .exists => "File exists (os error 17)"
  | .notDirectory => "Not a directory (os error 20)"
  | .isDirectory => "Is a directory (os error 21)"
  | .notText => "stream did not contain valid UTF-8"
  | .other message => message

/-- Whether a call fails because nothing stands at the path. -/
def FileError.isAbsence : FileError → Bool
  | .notFound | .notDirectory => true
  | _ => false

/-- What stands under a name. -/
inductive Entity where
  | directory
  | file (content : ByteArray)

/-- Directories and files, each under the names that lead to it from the root. The working directory and all above it
are directories. -/
structure Files where
  directories : List (List String) := []
  files : List (List String × ByteArray) := []
  working : List String := ["work"]

namespace Files

/-- What stands at the end of a chain of names. -/
def entity? (fs : Files) (names : List String) : Option Entity :=
  if names.isPrefixOf fs.working || fs.directories.contains names then some .directory
  else (fs.files.find? fun f => f.1 = names).map fun f => .file f.2

/-- Where a name in a directory leads; the root is above itself. -/
def child (names : List String) (name : String) : List String :=
  if name = ".." then names.dropLast else names ++ [name]

/-- Follows one piece of a path, which needs a directory to start from. -/
def follow (fs : Files) (names : List String) (piece : String) : Except FileError (List String) :=
  match fs.entity? names with
  | none => .error .notFound
  | some (.file _) => .error .notDirectory
  | some .directory => .ok (if Path.isIdle piece then names else child names piece)

/-- Where a path starts. -/
def origin (fs : Files) (path : String) : List String := if Path.isAbsolute path then [] else fs.working

/-- Where a path leads; there need not be anything. -/
def resolve (fs : Files) (path : String) : Except FileError (List String) :=
  if path = "" then .error .notFound else (Path.pieces path).foldlM fs.follow (fs.origin path)

/-- The content of a file. -/
def read (fs : Files) (path : String) : Except FileError ByteArray := do
  match fs.entity? (← fs.resolve path) with
  | none => .error .notFound
  | some .directory => .error .isDirectory
  | some (.file content) => .ok content

/-- The text of a file. -/
def readText (fs : Files) (path : String) : Except FileError String := do
  match String.fromUTF8? (← fs.read path) with
  | some text => .ok text
  | none => .error .notText

/-- Puts a content under names. -/
def put (fs : Files) (names : List String) (content : ByteArray) : Files :=
  { fs with files := (names, content) :: fs.files.filter fun f => f.1 ≠ names }

/-- Writes a file; its directory must be there, and a path that ends with a slash is none of a file. -/
def write (fs : Files) (path : String) (content : ByteArray) : Except FileError Files := do
  let names ← fs.resolve (Path.withoutSlash path)
  if Path.endsWithSlash path then .error .isDirectory
  else match fs.entity? names with
    | some .directory => .error .isDirectory
    | _ => .ok (fs.put names content)

/-- Makes one directory, where names lead to from a start. -/
def makeDirectory (fs : Files) (start names : List String) : Except FileError Files := do
  let place ← names.foldlM fs.follow start
  match fs.entity? place with
  | some _ => .error .exists
  | none => .ok { fs with directories := fs.directories ++ [place] }

/-- Whether names lead to a directory. -/
def isDirectory (fs : Files) (start names : List String) : Bool :=
  match names.foldlM fs.follow start with
  | .ok place => (fs.entity? place matches some .directory)
  | .error _ => false

/-- Makes one directory if there is none: the answer, and the files afterwards. -/
def ensureDirectory (fs : Files) (start names : List String) : Except FileError Unit × Files :=
  match fs.makeDirectory start names with
  | .ok after => (.ok (), after)
  | .error cause => (if fs.isDirectory start names then .ok () else .error cause, fs)

/-- Makes a directory, whose names are given from the last one on. If the directory that it is in is missing, that one
is made before. What was made before a failure stays. -/
def makeChain (fs : Files) (start : List String) : List String → Except FileError Unit × Files
  | [] => (.ok (), fs)
  | name :: above =>
    match fs.ensureDirectory start (name :: above).reverse with
    | (.error .notFound, _) =>
      match fs.makeChain start above with
      | (.ok (), fs) => fs.ensureDirectory start (name :: above).reverse
      | failed => failed
    | done => done

/-- Makes the directory that a file of the given path needs: the answer, and the files afterwards. -/
def makeParents (fs : Files) (path : String) : Except FileError Unit × Files :=
  fs.makeChain (fs.origin path) (Path.names path).reverse.tail

/-- The files with the directory that a file of the given path needs. -/
def makeDirectories (fs : Files) (path : String) : Except FileError Files :=
  let (answer, after) := fs.makeParents path
  answer.map fun _ => after

end Files

end Toolpath
