import Toolpath.Move
import Toolpath.Record.Setup

/-!
# Data forms of machines and moves

The serialized forms of `MachineState`, `ArcGeometry`, `Move`, `Bounds` and `Diagnostic`.

* `Machine.toValue`, `Machine.ofValue?`: the state of the machine.
* `Move.toValue`, `Move.ofValue?`: a move with its arc and the machine after it.
* `movesToValue`, `movesOfValue?`: a `MoveList`, as `MoveList.to_json` writes it.
* `Bounds.toValue`, `Diagnostic.toValue`: what else a report lists.
-/

namespace Toolpath

open Value

namespace Machine

/-- The keys of a machine, in their order. -/
def keys : List String :=
  ["position", "motion_mode", "feed_rate", "spindle_speed", "spindle", "tool", "coolant", "units",
    "plane", "distance_mode", "work_offset", "axis_offset", "program_ended"]

def toValue (m : Machine) : Value :=
  .table (keys.zip [m.position.toValue, .string m.motionMode.name, .real m.feedRate,
    .real m.spindleSpeed, .string m.spindle.name, .nat m.tool, .string m.coolant.name,
    .string m.units.name, .string m.plane.name, .string m.distanceMode.name,
    .string m.workOffset.name, m.axisOffset.toValue, .bool m.programEnded])

def ofValue? (d : Dialect) (v : Value) : Option Machine := do
  match ← v.fields? d .full keys with
  | [position, motionMode, feedRate, spindleSpeed, spindle, tool, coolant, units, plane,
      distanceMode, workOffset, axisOffset, programEnded] =>
    return {
      position := ← need? (Position.ofValue? d) position
      motionMode := ← need? (named? d MotionKind.all MotionKind.name) motionMode
      feedRate := ← need? float? feedRate
      spindleSpeed := ← need? float? spindleSpeed
      spindle := ← need? (named? d Spindle.all Spindle.name) spindle
      tool := ← need? (natBelow? (Number.twoTo 32)) tool
      coolant := ← need? (named? d Coolant.all Coolant.name) coolant
      units := ← need? (named? d Units.all Units.name) units
      plane := ← need? (named? d Plane.all Plane.name) plane
      distanceMode := ← need? (named? d DistanceMode.all DistanceMode.name) distanceMode
      workOffset := ← need? (named? d WorkOffset.all WorkOffset.name) workOffset
      axisOffset := ← need? (Position.ofValue? d) axisOffset
      programEnded := ← need? bool? programEnded }
  | _ => none

end Machine

namespace Arc

/-- The keys of an arc, in their order. -/
def keys : List String := ["plane", "center", "radius", "start_angle", "sweep"]

def toValue (a : Arc) : Value :=
  .table (keys.zip [.string a.plane.name, a.center.toValue, .real a.radius, .real a.startAngle,
    .real a.sweep])

def ofValue? (d : Dialect) (v : Value) : Option Arc := do
  match ← v.fields? d .full keys with
  | [plane, center, radius, startAngle, sweep] =>
    return {
      plane := ← need? (named? d Plane.all Plane.name) plane
      center := ← need? (Position.ofValue? d) center
      radius := ← need? float? radius
      startAngle := ← need? float? startAngle
      sweep := ← need? float? sweep }
  | _ => none

end Arc

def MoveId.ofValue? (v : Value) : Option MoveId := v.string?.bind MoveId.parse?

namespace Move

/-- The keys of a move, in their order. -/
def keys : List String := ["id", "index", "line", "kind", "start", "end", "arc", "state"]

def toValue (m : Move) : Value :=
  .table (keys.zip [.string m.id.text, .nat m.index, .nat m.line, .string m.kind.name,
    m.start.toValue, m.stop.toValue, ofOption Arc.toValue m.arc, m.after.toValue])

def ofValue? (d : Dialect) (v : Value) : Option Move := do
  match ← v.fields? d .full keys with
  | [id, index, line, kind, start, stop, arc, after] =>
    return {
      id := ← need? MoveId.ofValue? id
      index := ← need? nat? index
      line := ← need? nat? line
      motion := {
        kind := ← need? (named? d MotionKind.all MotionKind.name) kind
        start := ← need? (Position.ofValue? d) start
        stop := ← need? (Position.ofValue? d) stop
        arc := ← optional? (Arc.ofValue? d) arc
        after := ← need? (Machine.ofValue? d) after } }
  | _ => none

end Move

/-- A course as an array of moves. -/
def movesToValue (moves : List Move) : Value := .array (moves.map Move.toValue)

/-- Reads a course. -/
def movesOfValue? (d : Dialect) (v : Value) : Option (List Move) := array? (Move.ofValue? d) v

def Bounds.toValue (b : Bounds) : Value := .table [("min", b.min.toValue), ("max", b.max.toValue)]

def Diagnostic.toValue (d : Diagnostic) : Value :=
  .table [("line", ofOption .nat d.line), ("kind", .string d.cause.kind.name),
    ("severity", .string d.cause.severity.name), ("message", .string d.cause.message)]

end Toolpath
