import Toolpath.Record.Move
import Toolpath.Snapshot

/-!
# Reports

`Report`, a published snapshot as a text for people or as JSON.

* `ReportFormat.parse`: `ReportFormat.from_str`, the format of a name in any letter case.
* `Report.moveLine`: `move_line`, one move on a line.
* `Report.text`: `to_text`, one line for each move and each problem.
* `Report.toValue`: the same as data, with whole moves.
* `Report.render`: `render`, in either format.
-/

namespace Toolpath

/-- How a report is written. -/
inductive ReportFormat where
  | text | json
deriving DecidableEq, Repr

/-- The format of a name, or why there is none. -/
def ReportFormat.parse (name : String) : Except String ReportFormat :=
  match Text.asciiLower name with
  | "text" => .ok .text
  | "json" => .ok .json
  | other => .error s!"unknown format '{other}', expected text or json"

namespace Report

/-- A number with blanks after it, five characters wide or more. -/
def padded (n : Nat) : String :=
  let s := toString n
  s ++ String.ofList (List.replicate (5 - s.length) ' ')

/-- A code with two digits. -/
def twoDigits (n : Nat) : String := if n < 10 then s!"0{n}" else toString n

/-- The linear axes with three places. -/
def point (p : Position) : String :=
  "X" ++ Number.fixed 3 p.x ++ " Y" ++ Number.fixed 3 p.y ++ " Z" ++ Number.fixed 3 p.z

/-- A move on one line; lines of the program are shown from one. -/
def moveLine (m : Move) : String :=
  "#" ++ padded m.index ++ " line " ++ padded (m.line + 1) ++ " G" ++ twoDigits m.kind.code ++ "  " ++
    point m.start ++ " -> " ++ point m.stop

/-- The first line: what was read and what came of it. -/
def summary (s : Snapshot) : String :=
  s!"{s.identity}: {s.program.lineCount} lines, {s.moveCount} moves, " ++
    s!"{s.diagnostics.length} diagnostics"

/-- The lines of a report. -/
def lines (s : Snapshot) : List String :=
  [summary s] ++
  (boundsOf s.moves).toList.map (fun b => "bounds: " ++ b.min.text ++ " .. " ++ b.max.text) ++
  s.moves.map moveLine ++
  s.diagnostics.map Diagnostic.text ++
  ["final state: " ++ s.timeline.final.description]

/-- A report for people. -/
def text (s : Snapshot) : String := String.join ((lines s).map (· ++ "\n"))

/-- A report as data. -/
def toValue (s : Snapshot) : Value :=
  .table [("identity", .string s.identity), ("generation", .nat s.generation),
    ("line_count", .nat s.program.lineCount), ("move_count", .nat s.moveCount),
    ("bounds", .ofOption Bounds.toValue (boundsOf s.moves)),
    ("final_state", s.timeline.final.toValue),
    ("diagnostics", .array (s.diagnostics.map Diagnostic.toValue)),
    ("moves", movesToValue s.moves)]

/-- A report in a format. -/
def render (format : ReportFormat) (s : Snapshot) : String :=
  match format with
  | .text => text s
  | .json => Json.pretty (toValue s)

end Report

end Toolpath
