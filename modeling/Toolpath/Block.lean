import Toolpath.Block.Draft
import Toolpath.Scanner

/-!
# Blocks

`LineParser.parse_line` and `LineBuilder.finish`. A block (`ParsedLine`) is what one line of a program
says: commands in the order in which they take effect, whatever the order of the words, and what was
wrong with the line. Reading a block never fails; a word that is refused is reported and skipped.

* `Draft.actions`: the commands that `finish` pushes, in their fixed order.
* `Draft.leftovers`: the diagnostics that `finish` adds at the end of the line.
* `Draft.pushAll`: the loop of `parse_line` over the tokens.
* `Block.ofTokens`, `Block.ofLine`: `parse_line`, from the tokens and from the text.
-/

namespace Toolpath

namespace WordGroup

/-- The motion that a group commands, if it has words. -/
def motion? (g : WordGroup) (kind : MotionKind) : Option Action :=
  if g.hasWords then
    some (match kind with
      | .rapid => .linearMove true g.axes
      | .linear => .linearMove false g.axes
      | .arcClockwise => .arcMove true g.axes g.center g.radius
      | .arcCounterClockwise => .arcMove false g.axes g.center g.radius)
  else none

/-- The commands of a motion group: the mode that its code sets, then its motion. -/
def motionActions (g : WordGroup) : List Action :=
  match g.kind with
  | .motion kind =>
    (if g.implicit then [] else [.setMotionMode kind]) ++ (g.motion? kind).toList
  | .axisOffset => []

/-- The offset that a group sets, if it names an axis. -/
def offsetActions (g : WordGroup) : List Action :=
  match g.kind with
  | .motion _ => []
  | .axisOffset => if g.axes.isEmpty then [] else [.setAxisOffset g.axes]

/-- An offset group without an axis is incomplete. -/
def offsetProblems (g : WordGroup) : List Cause :=
  match g.kind with
  | .motion _ => []
  | .axisOffset => if g.axes.isEmpty then [.block (.missingWord "G92" 'X')] else []

/-- A radius beside center offsets is ignored. -/
def radiusProblems (g : WordGroup) : List Cause :=
  if g.takesArcWords && g.radius.isSome && !g.center.isEmpty then [.ignoredRadius] else []

end WordGroup

namespace Draft

/-- The dwell that a line commands: its code needs a time. -/
def dwellActions (d : Draft) : List Action :=
  match d.dwell, d.dwellSeconds with
  | true, some seconds => [.auxiliary (.dwell seconds)]
  | _, _ => []

/-- A dwell code without a time, or a time without the code. -/
def dwellProblems (d : Draft) : List Cause :=
  match d.dwell, d.dwellSeconds with
  | true, none => [.block (.missingWord "G4" 'P')]
  | false, some _ => [.block (.unexpectedWord 'P' "P is only used with G4")]
  | _, _ => []

/-- The commands of a line in the order in which they take effect. -/
def actions (d : Draft) : List Action :=
  d.comment.toList.map .comment ++
  (if d.noOp then [.noOp] else []) ++
  d.feedRate.toList.map .setFeedRate ++
  d.spindleSpeed.toList.map (fun rpm => .auxiliary (.spindleSpeed rpm)) ++
  d.tool.toList.map (fun tool => .auxiliary (.selectTool tool)) ++
  d.machineActions.map .auxiliary ++
  d.dwellActions ++
  d.plane.toList.map (fun chosen => .selectPlane chosen.value) ++
  d.units.toList.map (fun chosen => .setUnits chosen.value) ++
  d.distanceMode.toList.map (fun chosen => .setDistanceMode chosen.value) ++
  d.workOffset.toList.map (fun chosen => .selectWorkOffset chosen.value) ++
  (if d.clearAxisOffset then [.clearAxisOffset] else []) ++
  d.groups.flatMap WordGroup.offsetActions ++
  d.groups.flatMap WordGroup.motionActions ++
  d.programFlow.map .auxiliary

/-- What is wrong with a line as a whole. -/
def leftovers (d : Draft) : List Cause :=
  d.dwellProblems ++ d.groups.flatMap WordGroup.offsetProblems ++
    d.groups.flatMap WordGroup.radiusProblems

/-- Takes the items of a line in order; each refused item is reported and skipped. -/
def pushAll (d : Draft) : List Token → Draft × List BlockError
  | [] => (d, [])
  | token :: rest =>
    match d.push token with
    | .ok next => next.pushAll rest
    | .error cause =>
      let (last, causes) := d.pushAll rest
      (last, cause :: causes)

end Draft

/-- What one line of a program says. -/
structure Block where
  /-- The place of the line, from zero. -/
  line : Nat
  number : Option Nat
  commands : List Command
  diagnostics : List Diagnostic
deriving DecidableEq, Repr

namespace Block

/-- Whether the block moves the machine. -/
def hasMotion (b : Block) : Bool := b.commands.any Command.isMotion

/-- The block of a line's items under a motion mode. -/
def ofTokens (line : Nat) (motionMode : MotionKind) (items : List Token) : Block :=
  let (draft, refused) := Draft.pushAll { motionMode } items
  { line
    number := draft.blockNumber
    commands := draft.actions.map (Command.mk line)
    diagnostics := (refused.map Cause.block ++ draft.leftovers).map (Diagnostic.onLine line) }

/-- The block of a line under a motion mode. -/
def ofLine (line : Nat) (motionMode : MotionKind) (text : String) : Block :=
  ofTokens line motionMode (tokens text)

end Block

end Toolpath
