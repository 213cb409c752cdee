import Toolpath.Move

/-!
# Cursors

The `Cursor` inside `Playback`. It stands on one move of a published course and may be playing. Its
range belongs to the generation of that course.

* `Cursor`: position, maximum, generation and whether it plays.
* `Cursor.setRange?`: the locked part of `set_range`. It takes the range of a course and rewinds, unless
  the course is older than the present range.
* `Cursor.next?`, `Cursor.previous?`: the places that `Playback.step` and `Playback.step_back` go to.
* `Cursor.land`: what `land_on` does to the cursor.
-/

namespace Toolpath

/-- A cursor on a course. -/
structure Cursor where
  position : Nat := 0
  /-- The last place that can be selected. -/
  maximum : Nat := 0
  playing : Bool := false
  /-- The generation of the course that the range was taken from. -/
  generation : Nat := 0
deriving DecidableEq, Repr

namespace Cursor

/-- Takes a range and rewinds; a range older than the present one is ignored. -/
def setRange? (c : Cursor) (maximum generation : Nat) : Option Cursor :=
  if generation < c.generation then none else some { c with maximum, position := 0, generation }

/-- The place after the present one. -/
def next? (c : Cursor) : Option Nat := if c.position < c.maximum then some (c.position + 1) else none

/-- The place before the present one. -/
def previous? (c : Cursor) : Option Nat := if c.position = 0 then none else some (c.position - 1)

/-- Whether no place comes after the present one. -/
def atEnd (c : Cursor) : Bool := c.position ≥ c.maximum

/-- How many places come after the present one. -/
def remaining (c : Cursor) : Nat := c.maximum - c.position

def land (c : Cursor) (index : Nat) : Cursor := { c with position := index }

end Cursor

end Toolpath
