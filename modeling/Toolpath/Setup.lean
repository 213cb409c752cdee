import Toolpath.Modal

/-!
# Setup of a machine

`InterpreterConfig`. What the machine starts with: the modal settings in force before the first line,
the tolerance of arc radii, and the origins of the six work coordinate systems.

* `OffsetTable`: an origin for each slot, read by `get` (`work_offset`) and changed by `set`
  (`set_work_offset`).
* `Setup`: the whole setup, with its defaults.
* `Setup.problem?`: `InterpreterConfig.validate`, the first value that the machine cannot use.
-/

namespace Toolpath

/-- An origin for each work offset, in machine coordinates. -/
structure OffsetTable where
  g54 : Position := .origin
  g55 : Position := .origin
  g56 : Position := .origin
  g57 : Position := .origin
  g58 : Position := .origin
  g59 : Position := .origin
deriving BEq, DecidableEq, Repr

namespace OffsetTable

/-- The origin of a slot. -/
def get (t : OffsetTable) : WorkOffset → Position
  | .g54 => t.g54
  | .g55 => t.g55
  | .g56 => t.g56
  | .g57 => t.g57
  | .g58 => t.g58
  | .g59 => t.g59

/-- Changes the origin of one slot. -/
def set (t : OffsetTable) (slot : WorkOffset) (origin : Position) : OffsetTable :=
  match slot with
  | .g54 => { t with g54 := origin }
  | .g55 => { t with g55 := origin }
  | .g56 => { t with g56 := origin }
  | .g57 => { t with g57 := origin }
  | .g58 => { t with g58 := origin }
  | .g59 => { t with g59 := origin }

/-- The origins in the order of the slots. -/
def toList (t : OffsetTable) : List Position := WorkOffset.all.map t.get

/-- Six origins in the order of the slots. -/
def ofList? : List Position → Option OffsetTable
  | [g54, g55, g56, g57, g58, g59] => some { g54, g55, g56, g57, g58, g59 }
  | _ => none

@[simp] theorem get_set_self (t : OffsetTable) (slot : WorkOffset) (origin : Position) :
    (t.set slot origin).get slot = origin := by
  cases slot <;> rfl

@[simp] theorem get_set_ne (t : OffsetTable) {slot other : WorkOffset} (origin : Position)
    (h : other ≠ slot) : (t.set slot origin).get other = t.get other := by
  cases slot <;> cases other <;> first | rfl | exact absurd rfl h

@[simp] theorem ofList?_toList (t : OffsetTable) : ofList? t.toList = some t := rfl

end OffsetTable

/-- What the machine starts with. -/
structure Setup where
  units : Units := .mm
  plane : Plane := .xy
  distanceMode : DistanceMode := .absolute
  motionMode : MotionKind := .rapid
  /-- By how much the two radii of an arc may differ, whatever their size. -/
  arcTolerance : Float := 0.05
  workOffsets : OffsetTable := {}
deriving BEq, DecidableEq, Repr

/-- A value that the machine cannot use. -/
inductive SetupError where
  | arcTolerance (value : Float)
  | workOffset (slot : WorkOffset)
deriving DecidableEq, Repr

/-- The message of a setup error. -/
def SetupError.message : SetupError → String
  | .arcTolerance value =>
    "Arc tolerance must be a non-negative number, got " ++ Number.plain value
  | .workOffset slot => s!"Work offset {slot.text} has a non-finite axis"

namespace Setup

/-- The first value that the machine cannot use: the tolerance is finite and not negative, and every
origin is finite. -/
def problem? (s : Setup) : Option SetupError :=
  if !s.arcTolerance.isFinite || s.arcTolerance < 0 then some (.arcTolerance s.arcTolerance)
  else (WorkOffset.all.find? fun slot => !(s.workOffsets.get slot).isFinite).map .workOffset

end Setup

end Toolpath
