import Toolpath.Command
import Toolpath.Record.Setup

/-!
# Data forms of commands

The serialized forms of `CommandKind`, `AuxiliaryAction`, `CenterOffsets` and `Command`.

* `Action.toValue`, `Action.ofValue?`: an instruction under its name.
* `Command.ofValue?`: an instruction with its line.
-/

namespace Toolpath

open Value

namespace CenterOffsets

def toValue (o : CenterOffsets) : Value :=
  .table [("i", ofOption .real o.i), ("j", ofOption .real o.j), ("k", ofOption .real o.k)]

def ofValue? (d : Dialect) (v : Value) : Option CenterOffsets := do
  match ← v.fields? d .full ["i", "j", "k"] with
  | [i, j, k] => return ⟨← optional? float? i, ← optional? float? j, ← optional? float? k⟩
  | _ => none

end CenterOffsets

namespace Auxiliary

def toValue : Auxiliary → Value
  | .dwell seconds => .table [("dwell", .table [("seconds", .real seconds)])]
  | .spindleSpeed rpm => .table [("spindle_speed", .real rpm)]
  | .spindle state => .table [("spindle", .string state.name)]
  | .selectTool tool => .table [("select_tool", .nat tool)]
  | .toolChange => .string "tool_change"
  | .coolant state => .table [("coolant", .string state.name)]
  | .pause skippable => .table [("pause", .table [("optional", .bool skippable)])]
  | .programEnd => .string "program_end"

/-- The instructions that carry nothing. -/
def bare : List Auxiliary := [.toolChange, .programEnd]

/-- The name of an instruction that carries nothing. -/
def bareName : Auxiliary → String
  | .toolChange => "tool_change"
  | _ => "program_end"

def ofValue? (d : Dialect) (v : Value) : Option Auxiliary :=
  match v.variant? with
  | some ("dwell", some payload) => do
    match ← payload.fields? d .full ["seconds"] with
    | [seconds] => return .dwell (← need? float? seconds)
    | _ => none
  | some ("spindle_speed", some payload) => payload.float?.map .spindleSpeed
  | some ("spindle", some payload) => (named? d Spindle.all Spindle.name payload).map .spindle
  | some ("select_tool", some payload) => (natBelow? (Number.twoTo 32) payload).map .selectTool
  | some ("coolant", some payload) => (named? d Coolant.all Coolant.name payload).map .coolant
  | some ("pause", some payload) => do
    match ← payload.fields? d .full ["optional"] with
    | [skippable] => return .pause (← need? bool? skippable)
    | _ => none
  | _ => named? d bare bareName v

end Auxiliary

namespace Action

def toValue : Action → Value
  | .setMotionMode kind => .table [("set_motion_mode", .string kind.name)]
  | .linearMove rapid target =>
    .table [("linear_move", .table [("rapid", .bool rapid), ("target", target.toValue)])]
  | .arcMove clockwise target center radius =>
    .table [("arc_move", .table [("clockwise", .bool clockwise), ("target", target.toValue),
      ("center", center.toValue), ("radius", ofOption .real radius)])]
  | .setFeedRate rate => .table [("set_feed_rate", .real rate)]
  | .setUnits units => .table [("set_units", .string units.name)]
  | .selectPlane plane => .table [("select_plane", .string plane.name)]
  | .setDistanceMode mode => .table [("set_distance_mode", .string mode.name)]
  | .selectWorkOffset slot => .table [("select_work_offset", .string slot.name)]
  | .setAxisOffset words => .table [("set_axis_offset", words.toValue)]
  | .clearAxisOffset => .string "clear_axis_offset"
  | .auxiliary action => .table [("auxiliary", action.toValue)]
  | .comment text => .table [("comment", .string text)]
  | .noOp => .string "no_op"

/-- The instructions that carry nothing. -/
def bare : List Action := [.clearAxisOffset, .noOp]

/-- The name of an instruction that carries nothing. -/
def bareName : Action → String
  | .clearAxisOffset => "clear_axis_offset"
  | _ => "no_op"

def ofValue? (d : Dialect) (v : Value) : Option Action :=
  match v.variant? with
  | some ("set_motion_mode", some payload) =>
    (named? d MotionKind.all MotionKind.name payload).map .setMotionMode
  | some ("linear_move", some payload) => do
    match ← payload.fields? d .full ["rapid", "target"] with
    | [rapid, target] => return .linearMove (← need? bool? rapid) (← need? (AxisWords.ofValue? d) target)
    | _ => none
  | some ("arc_move", some payload) => do
    match ← payload.fields? d .full ["clockwise", "target", "center", "radius"] with
    | [clockwise, target, center, radius] =>
      return .arcMove (← need? bool? clockwise) (← need? (AxisWords.ofValue? d) target)
        (← need? (CenterOffsets.ofValue? d) center) (← optional? float? radius)
    | _ => none
  | some ("set_feed_rate", some payload) => payload.float?.map .setFeedRate
  | some ("set_units", some payload) => (named? d Units.all Units.name payload).map .setUnits
  | some ("select_plane", some payload) => (named? d Plane.all Plane.name payload).map .selectPlane
  | some ("set_distance_mode", some payload) =>
    (named? d DistanceMode.all DistanceMode.name payload).map .setDistanceMode
  | some ("select_work_offset", some payload) =>
    (named? d WorkOffset.all WorkOffset.name payload).map .selectWorkOffset
  | some ("set_axis_offset", some payload) => (AxisWords.ofValue? d payload).map .setAxisOffset
  | some ("auxiliary", some payload) => (Auxiliary.ofValue? d payload).map .auxiliary
  | some ("comment", some payload) => payload.string?.map .comment
  | _ => named? d bare bareName v

end Action

/-- An instruction with its line. -/
def Command.ofValue? (d : Dialect) (v : Value) : Option Command := do
  match ← v.fields? d .full ["line", "kind"] with
  | [line, action] => return ⟨← need? nat? line, ← need? (Action.ofValue? d) action⟩
  | _ => none

end Toolpath
