import Toolpath.Axis

/-!
# Modal settings

The settings of a machine that stay in force until a code changes them. Each has the codes that select
it (`gcode`, `from_gcode`), a text for people, and a name for data files.

* `Units`, `MotionKind`, `Plane`, `DistanceMode`, `WorkOffset`, `Spindle` (`SpindleState`), `Coolant`
  (`CoolantState`).
* `Plane.first`, `Plane.second`, `Plane.normal`: `Plane.axes`, the two axes of a plane and its normal.
-/

namespace Toolpath

/-- The unit of length. -/
inductive Units where
  | mm | inch
deriving DecidableEq, Repr

namespace Units

def all : List Units := [.mm, .inch]

/-- The `G` code that selects the unit. -/
def code : Units → Nat
  | .inch => 20
  | .mm => 21

def text : Units → String
  | .mm => "mm"
  | .inch => "in"

def name : Units → String
  | .mm => "MM"
  | .inch => "INCH"

end Units

/-- How the machine moves. -/
inductive MotionKind where
  | rapid | linear | arcClockwise | arcCounterClockwise
deriving DecidableEq, Repr

namespace MotionKind

def all : List MotionKind := [.rapid, .linear, .arcClockwise, .arcCounterClockwise]

/-- The `G` code that selects the kind. -/
def code : MotionKind → Nat
  | .rapid => 0
  | .linear => 1
  | .arcClockwise => 2
  | .arcCounterClockwise => 3

def ofCode? (n : Nat) : Option MotionKind := all.find? fun kind => kind.code = n

/-- Whether the tool runs on a circle. -/
def isArc : MotionKind → Bool
  | .arcClockwise | .arcCounterClockwise => true
  | .rapid | .linear => false

def text : MotionKind → String
  | .rapid => "Rapid positioning (G00)"
  | .linear => "Linear interpolation (G01)"
  | .arcClockwise => "Clockwise arc (G02)"
  | .arcCounterClockwise => "Counter-clockwise arc (G03)"

def name : MotionKind → String
  | .rapid => "rapid"
  | .linear => "linear"
  | .arcClockwise => "arc_clockwise"
  | .arcCounterClockwise => "arc_counter_clockwise"

end MotionKind

/-- The plane in which arcs run. -/
inductive Plane where
  | xy | xz | yz
deriving DecidableEq, Repr

namespace Plane

def all : List Plane := [.xy, .xz, .yz]

/-- The `G` code that selects the plane. -/
def code : Plane → Nat
  | .xy => 17
  | .xz => 18
  | .yz => 19

def ofCode? (n : Nat) : Option Plane := all.find? fun plane => plane.code = n

/-- The first axis, from which angles are measured. -/
def first : Plane → Axis
  | .xy | .xz => .x
  | .yz => .y

/-- The second axis, towards which angles grow. -/
def second : Plane → Axis
  | .xy => .y
  | .xz | .yz => .z

/-- The linear axis outside the plane. -/
def normal : Plane → Axis
  | .xy => .z
  | .xz => .y
  | .yz => .x

def name : Plane → String
  | .xy => "XY"
  | .xz => "XZ"
  | .yz => "YZ"

def text (plane : Plane) : String := plane.name ++ " plane (G" ++ toString plane.code ++ ")"

end Plane

/-- Whether programmed numbers are places or steps. -/
inductive DistanceMode where
  | absolute | incremental
deriving DecidableEq, Repr

namespace DistanceMode

def all : List DistanceMode := [.absolute, .incremental]

/-- The `G` code that selects the mode. -/
def code : DistanceMode → Nat
  | .absolute => 90
  | .incremental => 91

def text : DistanceMode → String
  | .absolute => "Absolute positioning (G90)"
  | .incremental => "Incremental positioning (G91)"

def name : DistanceMode → String
  | .absolute => "absolute"
  | .incremental => "incremental"

end DistanceMode

/-- A slot of the work offset table. -/
inductive WorkOffset where
  | g54 | g55 | g56 | g57 | g58 | g59
deriving DecidableEq, Repr

namespace WorkOffset

def all : List WorkOffset := [.g54, .g55, .g56, .g57, .g58, .g59]

/-- The place of a slot in the table, from zero. -/
def index : WorkOffset → Nat
  | .g54 => 0
  | .g55 => 1
  | .g56 => 2
  | .g57 => 3
  | .g58 => 4
  | .g59 => 5

/-- The `G` code that selects the slot. -/
def code (slot : WorkOffset) : Nat := 54 + slot.index

def ofCode? (n : Nat) : Option WorkOffset := all.find? fun slot => slot.code = n

def text (slot : WorkOffset) : String := "G" ++ toString slot.code

def name (slot : WorkOffset) : String := slot.text

end WorkOffset

/-- What the spindle does. -/
inductive Spindle where
  | off | clockwise | counterClockwise
deriving DecidableEq, Repr

namespace Spindle

def all : List Spindle := [.off, .clockwise, .counterClockwise]

def name : Spindle → String
  | .off => "off"
  | .clockwise => "clockwise"
  | .counterClockwise => "counter_clockwise"

end Spindle

/-- What the coolant supply does. -/
inductive Coolant where
  | off | mist | flood
deriving DecidableEq, Repr

namespace Coolant

def all : List Coolant := [.off, .mist, .flood]

def name : Coolant → String
  | .off => "off"
  | .mist => "mist"
  | .flood => "flood"

end Coolant

end Toolpath
