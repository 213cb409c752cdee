import Toolpath.Arc
import Toolpath.Setup

/-!
# The machine

`MachineState` and `Simulator.apply`. The state of the machine after some commands, and what one more
command does to it. Positions are machine coordinates. A refused command changes nothing.

* `Machine`: `MachineState`; `Machine.ofSetup` is `from_config`, the state at power on.
* `Machine.description`: `MachineState.description`.
* `AxisWords.resolveOver`: programmed axes get new values, all of which are finite.
* `Machine.destination`: `Simulator.destination`, where a motion ends.
* `Machine.offsetFor`: the axis offset of a `G92`.
* `Machine.applyAuxiliary`: `apply_auxiliary`.
* `Machine.apply`: `Simulator.apply`, the state after a command with the motion it makes. `Motion` is
  `MotionRecord`.
-/

namespace Toolpath

/-- The state of the machine. -/
structure Machine where
  position : Position
  motionMode : MotionKind
  feedRate : Float
  spindleSpeed : Float
  spindle : Spindle
  tool : Nat
  coolant : Coolant
  units : Units
  plane : Plane
  distanceMode : DistanceMode
  workOffset : WorkOffset
  /-- The offset that `G92` adds to the work offset. -/
  axisOffset : Position
  programEnded : Bool
deriving BEq, DecidableEq, Repr

/-- A motion that the machine made. -/
structure Motion where
  kind : MotionKind
  start : Position
  stop : Position
  arc : Option Arc
  /-- The machine after the motion. -/
  after : Machine
deriving BEq, DecidableEq, Repr

/-- A position in which each programmed axis has the value that `f` finds for it. The first axis
without a finite value is refused. -/
def AxisWords.resolveOver (words : AxisWords) (base : Position) (f : Axis → Float → Float) :
    Except MotionError Position :=
  match words.toPairs.find? fun (axis, v) => !(f axis v).isFinite with
  | some (axis, _) => .error (.nonFinitePosition axis)
  | none => .ok (.ofFn fun axis => ((words.get axis).map (f axis)).getD (base.get axis))

namespace Machine

/-- The machine at power on. -/
def ofSetup (setup : Setup) : Machine where
  position := .origin
  motionMode := setup.motionMode
  feedRate := 0
  spindleSpeed := 0
  spindle := .off
  tool := 0
  coolant := .off
  units := setup.units
  plane := setup.plane
  distanceMode := setup.distanceMode
  workOffset := .g54
  axisOffset := .origin
  programEnded := false

/-- The modal settings as codes. -/
def description (m : Machine) : String :=
  s!"G{m.motionMode.code} G{m.plane.code} G{m.distanceMode.code} G{m.units.code} " ++
    m.workOffset.text ++ " F" ++ Number.plain m.feedRate ++ " S" ++ Number.plain m.spindleSpeed ++
    s!" T{m.tool}"

/-- The value that a programmed number stands for: a place in the work coordinates, or a step. -/
def resolved (setup : Setup) (m : Machine) (axis : Axis) (value : Float) : Float :=
  match m.distanceMode with
  | .absolute => value + (setup.workOffsets.get m.workOffset).get axis + m.axisOffset.get axis
  | .incremental => m.position.get axis + value

/-- Where a motion ends: programmed axes move, the others keep their value. -/
def destination (setup : Setup) (m : Machine) (target : AxisWords) : Except MotionError Position :=
  target.resolveOver m.position (m.resolved setup)

/-- The axis offset under which the present point reads as the given numbers. -/
def offsetFor (setup : Setup) (m : Machine) (words : AxisWords) : Except MotionError Position :=
  words.resolveOver m.axisOffset fun axis value =>
    m.position.get axis - (setup.workOffsets.get m.workOffset).get axis - value

/-- The effect of an auxiliary instruction. The end of a program stops spindle and coolant. -/
def applyAuxiliary (m : Machine) : Auxiliary → Machine
  | .spindleSpeed rpm => { m with spindleSpeed := rpm }
  | .spindle spindle => { m with spindle }
  | .selectTool tool => { m with tool }
  | .coolant coolant => { m with coolant }
  | .programEnd => { m with programEnded := true, spindle := .off, coolant := .off }
  | .dwell _ | .toolChange | .pause _ => m

/-- The machine after a motion to a point. -/
def moveTo (m : Machine) (kind : MotionKind) (stop : Position) (arc : Option Arc) :
    Machine × Option Motion :=
  let after := { m with motionMode := kind, position := stop }
  (after, some { kind, start := m.position, stop, arc, after })

/-- The kind of an arc that runs clockwise or not. -/
def arcKind (clockwise : Bool) : MotionKind :=
  if clockwise then .arcClockwise else .arcCounterClockwise

/-- The machine after a command, with the motion that the command makes. -/
def apply (setup : Setup) (m : Machine) : Action → Except MotionError (Machine × Option Motion)
  | .setMotionMode kind => .ok ({ m with motionMode := kind }, none)
  | .linearMove rapid target => do
    let stop ← m.destination setup target
    return m.moveTo (if rapid then .rapid else .linear) stop none
  | .arcMove clockwise target center radius => do
    let stop ← m.destination setup target
    let arc ← Arc.resolve setup.arcTolerance m.plane m.position stop clockwise center radius
    return m.moveTo (arcKind clockwise) stop (some arc)
  | .setFeedRate rate => .ok ({ m with feedRate := rate }, none)
  | .setUnits units => .ok ({ m with units }, none)
  | .selectPlane plane => .ok ({ m with plane }, none)
  | .setDistanceMode mode => .ok ({ m with distanceMode := mode }, none)
  | .selectWorkOffset slot => .ok ({ m with workOffset := slot }, none)
  | .setAxisOffset words => do return ({ m with axisOffset := ← m.offsetFor setup words }, none)
  | .clearAxisOffset => .ok ({ m with axisOffset := .origin }, none)
  | .auxiliary action => .ok (m.applyAuxiliary action, none)
  | .comment _ | .noOp => .ok (m, none)

end Machine

end Toolpath
