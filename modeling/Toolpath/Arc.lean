import Toolpath.Command
import Toolpath.Diagnostic
import Toolpath.Number.Hypot

/-!
# Arcs

`Simulator.resolve_arc` and `ArcGeometry`. An arc command names an end point and either the distances to
the center or a radius. Resolving it finds the circle in the plane and the angle that the tool sweeps;
axes outside the plane move in step, so an arc may be a helix.

* `epsilon`, `relativeArcTolerance`: `EPSILON` and `ARC_RELATIVE_TOLERANCE`.
* `Arc`: `ArcGeometry`, with `is_clockwise` and `is_full_circle`.
* `Circle.ofOffsets`, `Circle.ofRadius`: the center form and the radius form of `resolve_arc`, seen in
  the plane.
* `Arc.resolve`: `resolve_arc`, the arc of a command or the first reason why there is none.
* `Arc.pointAt`, `Arc.length`: `ArcGeometry.point_at` and `ArcGeometry.length`.
* `Arc.extremes`: the corners that `MoveList.bounds` takes for an arc.
-/

namespace Toolpath

/-- Lengths below this are taken for zero. -/
def epsilon : Float := 1e-9

/-- A full turn, in radians. -/
def fullTurn : Float := 6.283185307179586

/-- Half a turn, in radians. -/
def halfTurn : Float := 3.141592653589793

/-- By how much the two radii of an arc may differ, relative to the first. -/
def relativeArcTolerance : Float := 0.001

/-- The nearest value between two bounds; what is not a number stays so. -/
def clamp (low high x : Float) : Float :=
  let x := if x < low then low else x
  if x > high then high else x

/-- The angle of the direction with the given parts, at most half a turn to either side. The arc tangent
keeps to this range, and is a number if both parts are: the bounds change no value, but hold by
definition. -/
def direction (second first : Float) : Float :=
  let angle := Float.atan2 second first
  if angle.isNaN && !(second.isNaN || first.isNaN) then 0 else clamp (-halfTurn) halfTurn angle

/-- A resolved arc. Angles are measured from the first axis of the plane towards the second; the sweep
is negative for clockwise arcs and a full turn for whole circles. -/
structure Arc where
  plane : Plane
  /-- The center; axes outside the plane have the values of the start. -/
  center : Position
  radius : Float
  startAngle : Float
  sweep : Float
deriving BEq, DecidableEq, Repr

/-- A point as seen in a plane: its place on the first axis and on the second. -/
structure PlanarPoint where
  first : Float
  second : Float
deriving DecidableEq, Repr

/-- A position as seen in a plane. -/
def Plane.project (plane : Plane) (p : Position) : PlanarPoint :=
  ⟨p.get plane.first, p.get plane.second⟩

/-- A position moved to a place in a plane; axes outside the plane stay. -/
def Plane.place (plane : Plane) (p : Position) (at_ : PlanarPoint) : Position :=
  (p.set plane.first at_.first).set plane.second at_.second

/-- The circle that an arc runs on, seen in its plane. -/
structure Circle where
  center : PlanarPoint
  radius : Float
  /-- Whether the arc goes all the way round. -/
  whole : Bool
deriving DecidableEq, Repr

namespace Circle

/-- The circle around the center that the offsets name. The radii at both ends agree up to the
tolerances; an arc that ends where it starts is a whole circle. -/
def ofOffsets (tolerance : Float) (start stop : PlanarPoint) (first second : Option Float) :
    Except MotionError Circle :=
  let center : PlanarPoint := ⟨start.first + first.getD 0, start.second + second.getD 0⟩
  let startRadius := Number.hypot (start.first - center.first) (start.second - center.second)
  let endRadius := Number.hypot (stop.first - center.first) (stop.second - center.second)
  let difference := (startRadius - endRadius).abs
  if startRadius < epsilon then .error .arcZeroRadius
  else if difference > tolerance && difference > relativeArcTolerance * startRadius then
    .error (.arcRadiusMismatch startRadius endRadius)
  else
    let whole :=
      (stop.first - start.first).abs < epsilon && (stop.second - start.second).abs < epsilon
    .ok ⟨center, startRadius, whole⟩

/-- The circle of a given radius through both ends. Its center lies on the left of the chord for short
counter-clockwise arcs and for long clockwise ones; a negative radius asks for the long arc. A chord
that is slightly too long makes a half circle. -/
def ofRadius (tolerance : Float) (start stop : PlanarPoint) (clockwise : Bool) (radius : Float) :
    Except MotionError Circle :=
  let du := stop.first - start.first
  let dv := stop.second - start.second
  let chord := Number.hypot du dv
  let half := chord / 2
  let square := radius * radius - half * half
  if chord < epsilon then .error .arcFullCircleRadius
  else if radius.abs < epsilon then .error .arcZeroRadius
  else if square < 0 && half - radius.abs > tolerance then
    .error (.arcRadiusTooSmall radius chord)
  else
    let height := (if square < 0 then 0 else square).sqrt
    let side : Float := if clockwise then -1 else 1
    let side := if radius < 0 then -side else side
    let center : PlanarPoint :=
      ⟨(start.first + stop.first) / 2 + side * height * (-dv / chord),
        (start.second + stop.second) / 2 + side * height * (du / chord)⟩
    .ok ⟨center, Number.hypot (start.first - center.first) (start.second - center.second), false⟩

end Circle

namespace Arc

def isClockwise (a : Arc) : Bool := a.sweep < 0

def isFullCircle (a : Arc) : Bool := (a.sweep.abs - fullTurn).abs < epsilon

/-- The letter of the offset along a linear axis. -/
def offsetLetter : Axis → Char
  | .x => 'I'
  | .y => 'J'
  | _ => 'K'

/-- The circle of an arc command: center offsets win over a radius. -/
def circle (tolerance : Float) (plane : Plane) (start stop : PlanarPoint) (clockwise : Bool)
    (offsets : CenterOffsets) (radius : Option Float) : Except MotionError Circle :=
  if !offsets.isEmpty then
    Circle.ofOffsets tolerance start stop (offsets.along plane.first) (offsets.along plane.second)
  else match radius with
    | some r => Circle.ofRadius tolerance start stop clockwise r
    | none => .error .arcUnderspecified

/-- The angle from one direction to another, at most a full turn, in the sense of the arc. -/
def sweepBetween (clockwise : Bool) (startAngle endAngle : Float) : Float :=
  let turn := endAngle - startAngle
  let turn :=
    if clockwise then (if turn >= 0 then turn - fullTurn else turn)
    else if turn <= 0 then turn + fullTurn
    else turn
  clamp (-fullTurn) fullTurn turn

/-- The arc of a command. An offset along the plane's normal is refused before anything else. -/
def resolve (tolerance : Float) (plane : Plane) (start stop : Position) (clockwise : Bool)
    (offsets : CenterOffsets) (radius : Option Float) : Except MotionError Arc :=
  if (offsets.along plane.normal).isSome then
    .error (.invalidArcWord (offsetLetter plane.normal) plane)
  else do
    let s := plane.project start
    let e := plane.project stop
    let c ← circle tolerance plane s e clockwise offsets radius
    let startAngle := direction (s.second - c.center.second) (s.first - c.center.first)
    let endAngle := direction (e.second - c.center.second) (e.first - c.center.first)
    let sweep :=
      if c.whole then (if clockwise then -fullTurn else fullTurn)
      else sweepBetween clockwise startAngle endAngle
    return { plane, center := plane.place start c.center, radius := c.radius, startAngle, sweep }

end Arc

/-- The point at a fraction of the straight way between two positions. -/
def Position.between (start stop : Position) (t : Float) : Position :=
  .ofFn fun axis => start.get axis + (stop.get axis - start.get axis) * t

namespace Arc

/-- The point at a fraction of the way: the ends exactly, and between them a turn in the plane while
the other axes move evenly. -/
def pointAt (a : Arc) (start stop : Position) (t : Float) : Position :=
  if t <= 0 then start
  else if t >= 1 then stop
  else
    let angle := a.startAngle + a.sweep * t
    a.plane.place (start.between stop t)
      ⟨a.center.get a.plane.first + a.radius * angle.cos,
        a.center.get a.plane.second + a.radius * angle.sin⟩

/-- The length of the path with its rise along the normal. -/
def length (a : Arc) (start stop : Position) : Float :=
  let planar := a.sweep.abs * a.radius
  let rise := stop.get a.plane.normal - start.get a.plane.normal
  (planar * planar + rise * rise).sqrt

/-- The outermost points of the whole circle along both axes of the plane. -/
def extremes (a : Arc) : List Position :=
  let shifted (du dv : Float) : Position :=
    a.plane.place a.center
      ⟨a.center.get a.plane.first + du * a.radius, a.center.get a.plane.second + dv * a.radius⟩
  [shifted 1 0, shifted (-1) 0, shifted 0 1, shifted 0 (-1)]

end Arc

end Toolpath
