import Toolpath.Files.Path
import Toolpath.Text.Blank

/-!
# Programs

`Program`, a text with its identity. Its lines are what stands between line feeds; a carriage return at
the end of a line does not belong to it. There is always at least one line.

* `Program.lines`, `Program.lineCount`: `lines` and `line_count`, as `Program.new` splits the text.
* `Program.hasKnownExtension`: `has_known_extension` with `KNOWN_EXTENSIONS`, whether a path looks like a
  program file.
-/

namespace Toolpath

/-- A line without one carriage return at its end. -/
def dropReturn (line : List Char) : List Char :=
  if line.getLast? = some '\r' then line.dropLast else line

/-- A text with its name. -/
structure Program where
  identity : String
  text : String
deriving DecidableEq, Repr

namespace Program

/-- The lines in order. -/
def lines (p : Program) : List String :=
  (Text.splitOn '\n' p.text.toList).map fun line => String.ofList (dropReturn line)

def lineCount (p : Program) : Nat := p.lines.length

/-- The extensions of program files. -/
def knownExtensions : List String := ["nc", "tap"]

/-- Whether a path has the extension of a program file, in any letter case. -/
def hasKnownExtension (path : String) : Bool :=
  match Path.extension? path with
  | some extension => knownExtensions.contains (Text.asciiLower extension)
  | none => false

end Program

end Toolpath
