import Toolpath.Block
import Toolpath.Move
import Toolpath.Program

/-!
# Timelines

`run_pipeline`, the course of a whole program: its lines are read and carried out one after the other,
each line under the machine that the lines before it leave. Problems of a line are noted and never stop
the course.

* `emitAll`: runs a step that may emit over a list, with its laws for one item and for `++`.
* `Progress`, `LineProgress`: the variables of `run_pipeline`: the state and `warned_after_end`, and inside
  a line `mode_before_group`.
* `LineProgress.command`: the body of the loop over commands. A refused motion also undoes the motion code
  of its group.
* `Progress.line`: the body of the loop over lines.
* `Timeline`: `PipelineOutput`.
* `Timeline.ofLines`, `Timeline.run`: `run_pipeline`, without and with cancellation.
-/

namespace Toolpath

/-! ## Steps that emit -/

section Emit

variable {σ α ε : Type}

/-- One step from a state, after what was emitted before it. -/
def emitStep (step : σ → α → σ × List ε) (done : σ × Array ε) (x : α) : σ × Array ε :=
  let taken := step done.1 x
  (taken.1, done.2 ++ taken.2.toArray)

/-- Runs a step over a list from a state; what the steps emit is kept in order. -/
def emitAll (step : σ → α → σ × List ε) (s : σ) (xs : List α) : σ × Array ε :=
  xs.foldl (emitStep step) (s, #[])

/-- What was emitted before a run stays in front of what it emits. -/
theorem foldl_emitStep (step : σ → α → σ × List ε) (s : σ) (out : Array ε) (xs : List α) :
    xs.foldl (emitStep step) (s, out) =
      ((emitAll step s xs).1, out ++ (emitAll step s xs).2) := by
  induction xs generalizing s out with
  | nil => simp [emitAll]
  | cons x xs ih =>
    rw [emitAll, List.foldl_cons, List.foldl_cons, emitStep, emitStep, ih, ih _ (#[] ++ _)]
    simp [Array.append_assoc]

@[simp] theorem emitAll_nil (step : σ → α → σ × List ε) (s : σ) : emitAll step s [] = (s, #[]) := rfl

/-- The first step emits before the others. -/
theorem emitAll_cons (step : σ → α → σ × List ε) (s : σ) (x : α) (xs : List α) :
    emitAll step s (x :: xs) =
      ((emitAll step (step s x).1 xs).1, (step s x).2.toArray ++ (emitAll step (step s x).1 xs).2) := by
  rw [emitAll, List.foldl_cons, emitStep, foldl_emitStep]
  simp

/-- A run over two lists is a run over the first and then, from where it ends, over the second. -/
theorem emitAll_append (step : σ → α → σ × List ε) (s : σ) (xs ys : List α) :
    emitAll step s (xs ++ ys) =
      ((emitAll step (emitAll step s xs).1 ys).1,
        (emitAll step s xs).2 ++ (emitAll step (emitAll step s xs).1 ys).2) := by
  rw [emitAll, List.foldl_append, ← foldl_emitStep]
  rfl

end Emit

/-! ## One line -/

/-- What a course brings forth: a motion on a line, or a problem. -/
inductive Entry where
  | moved (line : Nat) (motion : Motion)
  | noted (problem : Diagnostic)
deriving DecidableEq, Repr

namespace Entry

/-- The motion of an entry, with its line. -/
def motion? : Entry → Option (Nat × Motion)
  | .moved line motion => some (line, motion)
  | .noted _ => none

/-- The problem of an entry. -/
def problem? : Entry → Option Diagnostic
  | .moved _ _ => none
  | .noted problem => some problem

end Entry

/-- How far a course has come. -/
structure Progress where
  machine : Machine
  /-- Whether a motion after the program's end was noted. -/
  warned : Bool := false
deriving DecidableEq, Repr

/-- How far a line has come: the course, and the motion mode before the motion code of the current
group of words. -/
structure LineProgress where
  progress : Progress
  modeBefore : Option MotionKind := none
deriving DecidableEq, Repr

namespace LineProgress

/-- Whether a command is the first motion after the program's end. -/
def firstAfterEnd (s : LineProgress) (action : Action) : Bool :=
  action.isMotion && s.progress.machine.programEnded && !s.progress.warned

/-- The motion mode to fall back to if the motion of the group is refused. -/
def fallback (s : LineProgress) : Action → Option MotionKind
  | .setMotionMode _ => some s.progress.machine.motionMode
  | _ => s.modeBefore

/-- The machine after a refused command: a refused motion leaves no motion code behind. -/
def afterRefusal (s : LineProgress) (action : Action) : Machine :=
  match action.isMotion, s.modeBefore with
  | true, some mode => { s.progress.machine with motionMode := mode }
  | _, _ => s.progress.machine

/-- Carries out a command. -/
def command (setup : Setup) (line : Nat) (s : LineProgress) (action : Action) :
    LineProgress × List Entry :=
  let warning := s.firstAfterEnd action
  let warned := s.progress.warned || warning
  let warnings := if warning then [Entry.noted (.onLine line .motionAfterEnd)] else []
  let modeBefore := if action.isMotion then none else s.fallback action
  match s.progress.machine.apply setup action with
  | .ok (machine, motion) =>
    (⟨{ machine, warned }, modeBefore⟩, warnings ++ motion.toList.map (.moved line))
  | .error cause =>
    (⟨{ machine := s.afterRefusal action, warned }, modeBefore⟩,
      warnings ++ [.noted (.onLine line (.motion cause))])

end LineProgress

namespace Progress

/-- Carries out a line: the problems of its text come before those of its commands. -/
def line (setup : Setup) (p : Progress) (numbered : String × Nat) : Progress × List Entry :=
  let block := Block.ofLine numbered.2 p.machine.motionMode numbered.1
  let (last, entries) :=
    emitAll (LineProgress.command setup numbered.2) { progress := p }
      (block.commands.map Command.action)
  (last.progress, block.diagnostics.map .noted ++ entries.toList)

end Progress

/-! ## A whole program -/

/-- The course of a program. -/
structure Timeline where
  moves : List Move
  diagnostics : List Diagnostic
  /-- The machine at the end. -/
  final : Machine
deriving DecidableEq, Repr

namespace Timeline

/-- The course of lines that are numbered from `first`, from some progress on. -/
def entriesFrom (setup : Setup) (p : Progress) (first : Nat) (lines : List String) :
    Progress × Array Entry :=
  emitAll (Progress.line setup) p (lines.zipIdx first)

/-- Numbers motions in their order and gives them identifiers. -/
def movesOf (mint : Nat → MoveId) (entries : Array Entry) : List Move :=
  (entries.toList.filterMap Entry.motion?).mapIdx fun index (line, motion) =>
    { id := mint index, index, line, motion }

/-- The course of a program's lines. -/
def ofLines (setup : Setup) (mint : Nat → MoveId) (lines : List String) : Timeline :=
  let (last, entries) := entriesFrom setup { machine := .ofSetup setup } 0 lines
  { moves := movesOf mint entries
    diagnostics := entries.toList.filterMap Entry.problem?
    final := last.machine }

/-- The course of a program, given up at the first line before which it is cancelled. -/
def run (setup : Setup) (mint : Nat → MoveId) (cancelledAt : Nat → Bool) (program : Program) :
    Except JobError Timeline :=
  if (List.range program.lineCount).any cancelledAt then .error (.cancelled program.identity)
  else .ok (ofLines setup mint program.lines)

end Timeline

end Toolpath
