import Toolpath.Modal

/-!
# Commands

What a line commands the machine to do, free of how it was written.

* `Action`: `CommandKind`, with `is_motion` and its `Display` text.
* `Auxiliary`: `AuxiliaryAction`, the instructions that do not concern the path.
* `CenterOffsets`: the words `I`, `J`, `K`, with `is_empty` and `along`.
* `Command`: an action with the line it stands on.
-/

namespace Toolpath

/-- The distances from the start of an arc to its center. -/
structure CenterOffsets where
  i : Option Float := none
  j : Option Float := none
  k : Option Float := none
deriving DecidableEq, Repr

namespace CenterOffsets

def isEmpty (o : CenterOffsets) : Bool := o.i.isNone && o.j.isNone && o.k.isNone

/-- The distance along an axis. -/
def along (o : CenterOffsets) : Axis → Option Float
  | .x => o.i
  | .y => o.j
  | .z => o.k
  | .a | .b | .c => none

end CenterOffsets

/-- An instruction that does not concern the path. -/
inductive Auxiliary where
  | dwell (seconds : Float)
  | spindleSpeed (rpm : Float)
  | spindle (spindle : Spindle)
  | selectTool (tool : Nat)
  | toolChange
  | coolant (coolant : Coolant)
  | pause (optional : Bool)
  | programEnd
deriving DecidableEq, Repr

/-- An auxiliary instruction as it is written on a line. -/
def Auxiliary.text : Auxiliary → String
  | .dwell seconds => "G4 P" ++ Number.plain seconds
  | .spindleSpeed rpm => "S" ++ Number.plain rpm
  | .spindle .clockwise => "M3"
  | .spindle .counterClockwise => "M4"
  | .spindle .off => "M5"
  | .selectTool tool => s!"T{tool}"
  | .toolChange => "M6"
  | .coolant .mist => "M7"
  | .coolant .flood => "M8"
  | .coolant .off => "M9"
  | .pause false => "M0"
  | .pause true => "M1"
  | .programEnd => "M2"

/-- One instruction. -/
inductive Action where
  | setMotionMode (kind : MotionKind)
  | linearMove (rapid : Bool) (target : AxisWords)
  | arcMove (clockwise : Bool) (target : AxisWords) (center : CenterOffsets) (radius : Option Float)
  | setFeedRate (rate : Float)
  | setUnits (units : Units)
  | selectPlane (plane : Plane)
  | setDistanceMode (mode : DistanceMode)
  | selectWorkOffset (slot : WorkOffset)
  | setAxisOffset (words : AxisWords)
  | clearAxisOffset
  | auxiliary (action : Auxiliary)
  | comment (text : String)
  | noOp
deriving DecidableEq, Repr

namespace Action

/-- Whether the instruction moves the machine. -/
def isMotion : Action → Bool
  | .linearMove _ _ | .arcMove _ _ _ _ => true
  | _ => false

/-- A word with its letter, if it is given. -/
def optionalWord (letter : String) : Option Float → String
  | some v => " " ++ letter ++ Number.plain v
  | none => ""

/-- An instruction as it is shown. -/
def text : Action → String
  | .setMotionMode kind => s!"G{kind.code}"
  | .linearMove rapid target => (if rapid then "G0 " else "G1 ") ++ target.text
  | .arcMove clockwise target center radius =>
    (if clockwise then "G2 " else "G3 ") ++ target.text ++ optionalWord "I" center.i ++
      optionalWord "J" center.j ++ optionalWord "K" center.k ++ optionalWord "R" radius
  | .setFeedRate rate => "F" ++ Number.plain rate
  | .setUnits units => s!"G{units.code}"
  | .selectPlane plane => plane.text
  | .setDistanceMode mode => s!"G{mode.code}"
  | .selectWorkOffset slot => slot.text
  | .setAxisOffset words => "G92 " ++ words.text
  | .clearAxisOffset => "G92.1"
  | .auxiliary action => action.text
  | .comment text => s!"({text})"
  | .noOp => "no-op"

end Action

/-- An instruction with the line it stands on, counted from zero. -/
structure Command where
  line : Nat
  action : Action
deriving DecidableEq, Repr

namespace Command

def isMotion (c : Command) : Bool := c.action.isMotion

def text (c : Command) : String := s!"[{c.line}] " ++ c.action.text

end Command

end Toolpath
