import Toolpath.Selection
import Toolpath.Timeline

/-!
# Snapshots

`JobSnapshot`, what a finished run publishes: the program, its course and the tables to find moves, all
under one generation.

* `Snapshot.ofTimeline`: the snapshot that `Job.finish` makes of a course.
* `moveCount`, `maxIndex`, `hasErrors`, `diagnosticsOnLine`: `move_count`, `max_index`, `has_errors` and
  `diagnostics_on_line`.
-/

namespace Toolpath

/-- What a finished run publishes. -/
structure Snapshot where
  generation : Nat
  program : Program
  timeline : Timeline
  index : SelectionIndex

namespace Snapshot

/-- The snapshot of a course; its tables carry the same generation. -/
def ofTimeline (generation : Nat) (program : Program) (timeline : Timeline) : Snapshot where
  generation
  program
  timeline
  index := .ofMoves generation timeline.moves

def identity (s : Snapshot) : String := s.program.identity

def moves (s : Snapshot) : List Move := s.timeline.moves

def diagnostics (s : Snapshot) : List Diagnostic := s.timeline.diagnostics

def moveCount (s : Snapshot) : Nat := s.moves.length

/-- The last place that can be selected, zero if there is none. -/
def maxIndex (s : Snapshot) : Nat := s.moveCount - 1

def hasErrors (s : Snapshot) : Bool := s.diagnostics.any Diagnostic.isError

/-- The problems of one line. -/
def diagnosticsOnLine (s : Snapshot) (line : Nat) : List Diagnostic :=
  s.diagnostics.filter fun d => d.line = some line

end Snapshot

end Toolpath
