import Toolpath.Move
import Std.Data.HashMap

/-!
# Selection

`SelectionIndex`. Finding moves by place, by identifier or by line. An index belongs to one published
course; as soon as another generation is live, every look-up through it is refused.

* `IndexError`: why a look-up gives nothing.
* `SelectionIndex.ofMoves`: `SelectionIndex.new`, the tables of a course.
* `isStale`, `check`: `is_stale` and `check`, given the generation that is live.
* `moveAt`, `indexOf`, `lineOf`, `movesOnLine`: the look-ups `move_at`, `index_of`, `line_of` and
  `moves_on_line`, given the generation that is live.
-/

namespace Toolpath

/-- Why a look-up gives nothing. -/
inductive IndexError where
  | stale (indexGeneration currentGeneration : Nat)
  | outOfRange (index count : Nat)
  | unknownMove (id : MoveId)
  | notReady
deriving DecidableEq, Repr

/-- The message of an index error. -/
def IndexError.message : IndexError → String
  | .stale own current =>
    s!"Selection index for generation {own} is stale (current generation {current})"
  | .outOfRange index count => s!"Move index {index} out of range (move count {count})"
  | .unknownMove id => s!"Unknown move {id.text}"
  | .notReady => "No processed program available"

/-- The tables of one published course. -/
structure SelectionIndex where
  /-- The generation that the course was published as. -/
  generation : Nat
  moves : Array Move
  byId : Std.HashMap MoveId Nat
  byLine : Std.HashMap Nat (Array Nat)

namespace SelectionIndex

/-- Enters the place of a move under its identifier. -/
def enterId (table : Std.HashMap MoveId Nat) (entry : Move × Nat) : Std.HashMap MoveId Nat :=
  table.insert entry.1.id entry.2

/-- Adds the place of a move to those of its line. -/
def enterLine (table : Std.HashMap Nat (Array Nat)) (entry : Move × Nat) :
    Std.HashMap Nat (Array Nat) :=
  table.insert entry.1.line ((table.getD entry.1.line #[]).push entry.2)

/-- The tables of a course. -/
def ofMoves (generation : Nat) (moves : List Move) : SelectionIndex where
  generation
  moves := moves.toArray
  byId := moves.zipIdx.foldl enterId ∅
  byLine := moves.zipIdx.foldl enterLine ∅

def size (t : SelectionIndex) : Nat := t.moves.size

/-- Whether another generation is live. -/
def isStale (t : SelectionIndex) (live : Nat) : Bool := live ≠ t.generation

/-- Refuses a look-up while another generation is live. -/
def check (t : SelectionIndex) (live : Nat) : Except IndexError Unit :=
  if t.isStale live then .error (.stale t.generation live) else .ok ()

/-- The move at a place. -/
def moveAt (t : SelectionIndex) (live index : Nat) : Except IndexError Move := do
  t.check live
  match t.moves[index]? with
  | some m => .ok m
  | none => .error (.outOfRange index t.size)

/-- The place of the move with an identifier. -/
def indexOf (t : SelectionIndex) (live : Nat) (id : MoveId) : Except IndexError Nat := do
  t.check live
  match t.byId[id]? with
  | some index => .ok index
  | none => .error (.unknownMove id)

/-- The line of the move at a place. -/
def lineOf (t : SelectionIndex) (live index : Nat) : Except IndexError Nat := do
  return (← t.moveAt live index).line

/-- The places of the moves that a line commands, in order. -/
def movesOnLine (t : SelectionIndex) (live line : Nat) : Except IndexError (List Nat) := do
  t.check live
  return (t.byLine.getD line #[]).toList

end SelectionIndex

end Toolpath
