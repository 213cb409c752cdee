import Toolpath.Machine
import Toolpath.MoveId

/-!
# Moves

A move is a motion with its place in the program's course and an identifier.

* `Move`: the record of a `MoveList`, with `is_rapid`.
* `Move.pointAt`, `Move.length`: `Move.point_at` and `Move.length`, the path of a move.
* `Move.sameMotion`: `same_motion`, equality up to the identifier.
* `Bounds`: `Bounds`, with `around`, `include` (`Bounds.insert`), `center` and `size`.
* `boundsOf`: `MoveList.bounds`, the box around the paths of a course.
-/

namespace Toolpath

/-- A move of a program's course. -/
structure Move where
  id : MoveId
  /-- The place among the moves, from zero. -/
  index : Nat
  /-- The line that commands the move, from zero. -/
  line : Nat
  motion : Motion
deriving DecidableEq, Repr

namespace Move

def kind (m : Move) : MotionKind := m.motion.kind

def start (m : Move) : Position := m.motion.start

def stop (m : Move) : Position := m.motion.stop

def arc (m : Move) : Option Arc := m.motion.arc

/-- The machine after the move. -/
def after (m : Move) : Machine := m.motion.after

def isRapid (m : Move) : Bool := m.kind = .rapid

/-- The point at a fraction of the way; fractions beyond the ends stop there. -/
def pointAt (m : Move) (t : Float) : Position :=
  match m.arc with
  | some arc => arc.pointAt m.start m.stop t
  | none => m.start.between m.stop (clamp 0 1 t)

/-- The length of the path on the linear axes. -/
def length (m : Move) : Float :=
  match m.arc with
  | some arc => arc.length m.start m.stop
  | none => Position.distance m.start m.stop

/-- Whether two moves are the same up to their identifiers. -/
def sameMotion (m n : Move) : Bool :=
  m.index == n.index && m.line == n.line && m.motion == n.motion

/-- The points that the bounds of a move go around: its ends and the extent of its whole circle. -/
def outline (m : Move) : List Position :=
  m.start :: m.stop :: (m.arc.map Arc.extremes).getD []

end Move

/-! ## Bounds -/

/-- The lesser of two numbers, the first if they are equal, and the other one if only one is a
number. -/
def lesser (x y : Float) : Float := if x.isNaN then y else if y < x then y else x

/-- The greater of two numbers, the first if they are equal, and the other one if only one is a
number. -/
def greater (x y : Float) : Float := if x.isNaN then y else if y > x then y else x

/-- A box along the linear axes. -/
structure Bounds where
  min : Position
  max : Position
deriving BEq, DecidableEq, Repr

namespace Bounds

/-- The box around one point. -/
def around (p : Position) : Bounds := ⟨.linear p.x p.y p.z, .linear p.x p.y p.z⟩

/-- The box around a box and a point. -/
def insert (b : Bounds) (p : Position) : Bounds where
  min := .linear (lesser b.min.x p.x) (lesser b.min.y p.y) (lesser b.min.z p.z)
  max := .linear (greater b.max.x p.x) (greater b.max.y p.y) (greater b.max.z p.z)

def center (b : Bounds) : Position :=
  .linear ((b.min.x + b.max.x) / 2) ((b.min.y + b.max.y) / 2) ((b.min.z + b.max.z) / 2)

/-- The lengths of the edges. -/
def size (b : Bounds) : List Float := [b.max.x - b.min.x, b.max.y - b.min.y, b.max.z - b.min.z]

end Bounds

/-- The box around the paths of moves, if there are any. -/
def boundsOf (moves : List Move) : Option Bounds :=
  match moves with
  | [] => none
  | first :: _ => some ((moves.flatMap Move.outline).foldl Bounds.insert (.around first.start))

end Toolpath
