import Toolpath.Setup
import Toolpath.Value

/-!
# Data forms of positions and setups

The serialized forms of `Position`, `AxisWords` and `InterpreterConfig`.

* `Position.toValue`, `Position.ofValue?`: a table with a number for each axis.
* `AxisWords.toValue`, `AxisWords.ofValue?`: six numbers, `null` for an axis that is not programmed.
* `Setup.toValue`, `Setup.ofValue?`: the setup; a key that is missing has its default.
-/

namespace Toolpath

open Value

namespace Position

/-- The keys of a position, in the order of the axes. -/
def keys : List String := ["x", "y", "z", "a", "b", "c"]

def toValue (p : Position) : Value := .table (keys.zip (p.toList.map .real))

def ofValue? (d : Dialect) (v : Value) : Option Position := do
  let fields ← v.fields? d .full keys
  PerAxis.ofList? (← fields.mapM (need? float?))

end Position

namespace AxisWords

def toValue (w : AxisWords) : Value :=
  .table [("values", .array (w.toList.map (ofOption .real)))]

def ofValue? (d : Dialect) (v : Value) : Option AxisWords := do
  match ← v.fields? d .full ["values"] with
  | [some (.array items)] =>
    PerAxis.ofList? (← (← d.firstItems? 6 items).mapM (option? float?))
  | _ => none

end AxisWords

namespace OffsetTable

def toValue (t : OffsetTable) : Value := .array (t.toList.map Position.toValue)

def ofValue? (d : Dialect) : Value → Option OffsetTable
  | .array items => do ofList? (← (← d.firstItems? 6 items).mapM (Position.ofValue? d))
  | _ => none

end OffsetTable

namespace Setup

/-- The keys of a setup, in their order. -/
def keys : List String :=
  ["initial_units", "initial_plane", "initial_distance_mode", "initial_motion_mode",
    "arc_tolerance", "work_offsets"]

def toValue (s : Setup) : Value :=
  .table (keys.zip [.string s.units.name, .string s.plane.name, .string s.distanceMode.name,
    .string s.motionMode.name, .real s.arcTolerance, s.workOffsets.toValue])

def ofValue? (d : Dialect) (v : Value) : Option Setup := do
  let usual : Setup := {}
  match ← v.fields? d .defaulted keys with
  | [units, plane, distanceMode, motionMode, arcTolerance, workOffsets] =>
    return {
      units := ← orDefault? usual.units (named? d Units.all Units.name) units
      plane := ← orDefault? usual.plane (named? d Plane.all Plane.name) plane
      distanceMode :=
        ← orDefault? usual.distanceMode (named? d DistanceMode.all DistanceMode.name) distanceMode
      motionMode := ← orDefault? usual.motionMode (named? d MotionKind.all MotionKind.name) motionMode
      arcTolerance := ← orDefault? usual.arcTolerance float? arcTolerance
      workOffsets := ← orDefault? usual.workOffsets (OffsetTable.ofValue? d) workOffsets }
  | _ => none

end Setup

end Toolpath
