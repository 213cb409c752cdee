import Toolpath.Session

/-!
# Playback

`Playback.run` and what a cursor shows. A playing cursor goes one move on with every tick of a clock,
until it is paused or stands on the last move.

* `Session.selectionIndex`: `Job.selection_index`.
* `Session.current`, `Session.highlight`: `Playback.current` and `Playback.highlight_line`, what a cursor
  stands on.
* `Step.playRound`: the body of the loop of `run`, what one tick does.
* `Step.play`, `Step.playEvery`: `run`, ticks until the cursor stops.
-/

namespace Toolpath

namespace Session

/-- The tables of the published course. -/
def selectionIndex (s : Session) : Except IndexError SelectionIndex :=
  match s.job.snapshot with
  | none => .error .notReady
  | some snapshot => .ok snapshot.index

/-- The move under a cursor. -/
def current (s : Session) (id : Nat) : Except IndexError Move :=
  match s.job.snapshot with
  | none => .error .notReady
  | some snapshot => snapshot.index.moveAt s.job.live (s.cursor id).position

/-- The line of the move under a cursor, if the program has it. -/
def highlight (s : Session) (id : Nat) : Option Nat := do
  let snapshot ← s.job.snapshot
  let line ← (snapshot.index.lineOf s.job.live (s.cursor id).position).toOption
  if line < snapshot.program.lineCount then some line else none

end Session

/-- What a tick led to. -/
inductive Round where
  /-- The cursor goes on playing; returns whether it moved. -/
  | onward (moved : Bool)
  /-- The cursor stands on the last move; returns whether it moved. -/
  | ended (moved : Bool)
  | failed (cause : IndexError)
deriving DecidableEq, Repr

namespace Step

/-- One tick of a playing cursor. -/
def playRound (tell : Publisher) (id : Nat) : Step Round := do
  match ← stepForward tell id with
  | .error cause => return .failed cause
  | .ok reached =>
    if ((← get).cursor id).atEnd then
      pause tell id
      tell (.playback .reachedEnd)
      return .ended reached.isSome
    else return .onward reached.isSome

end Step

/-- How far playing has come. -/
structure Played where
  steps : Nat := 0
  ticks : Nat := 0
deriving DecidableEq, Repr

namespace Played

def tick (p : Played) (moved : Bool) : Played :=
  { steps := if moved then p.steps + 1 else p.steps, ticks := p.ticks + 1 }

/-- The time that playing took, given the time between two ticks. -/
def elapsed (p : Played) (interval : Nat) : Nat := p.ticks * interval

end Played

/-- Whether playing came nearer to its end: fewer reactions are to come, or as many and fewer moves
remain. -/
def Nearer (id : Nat) (s t : Session) : Prop :=
  s.armed.length < t.armed.length ∨
    s.armed.length = t.armed.length ∧ (s.cursor id).remaining < (t.cursor id).remaining

instance (id : Nat) (s t : Session) : Decidable (Nearer id s t) :=
  inferInstanceAs (Decidable (_ ∨ _ ∧ _))

/-- What became of playing: how far it came and, if it failed, why. -/
structure PlayResult where
  played : Played
  failure : Option IndexError := none
deriving DecidableEq, Repr

/-- Plays from a session on. Each tick that goes on brings the end nearer, so playing ends. -/
def playFrom (id : Nat) (played : Played) (s : Session) :
    Except Interrupted PlayResult × Session :=
  if (s.cursor id).playing then
    match (Step.playRound Step.tell id).run s with
    | (.error e, next) => (.error e, next)
    | (.ok (.failed cause), next) =>
      (.ok { played := played.tick false, failure := some cause }, next)
    | (.ok (.ended moved), next) => (.ok { played := played.tick moved }, next)
    | (.ok (.onward moved), next) =>
      if _nearer : Nearer id next s then playFrom id (played.tick moved) next
      else (.ok { played := played.tick moved }, next)
  else (.ok { played }, s)
termination_by (s.armed.length, (s.cursor id).remaining)
decreasing_by
  rcases _nearer with h | ⟨h₁, h₂⟩
  · exact Prod.Lex.left _ _ h
  · rw [h₁]; exact Prod.Lex.right _ h₂

/-- Plays a cursor until it stops. -/
def Step.play (id : Nat) : Step PlayResult := fun s => playFrom id {} s

/-- Plays a cursor by a clock. There is no clock without time between its ticks. -/
def Step.playEvery (interval id : Nat) : Step PlayResult :=
  if interval = 0 then throw .interrupted else Step.play id

end Toolpath
