import Toolpath.Event
import Toolpath.Snapshot

/-!
# Jobs

`Job` with `JobInner` and `Lifecycle`. A job binds one program and publishes its course. Each load
starts a *run* (`Run`) with a new generation; a run that is no longer the newest is superseded and
changes nothing. What a job does is a sequence of *sections*, each of which holds the lifecycle lock
once.

* `Job`: the state. A course is published only while the job is ready. `Phase` is `JobState`.
* `Section`: what a section leaves behind, what it announces and what it answers.
* `Job.begin`, `Job.cancel`, `Job.reset`, `Job.failUnreadable`: `begin`, `cancel`, `reset` and
  `fail_unreadable`. `Job.supersede` is `withdraw` under the generation of a new run.
* `Job.start`: the first section of `execute`. `Job.finish`, with `Job.outcome`: `finish`.
* `Job.isCancelled`: `CancelToken.is_cancelled` of the token of a run.
-/

namespace Toolpath

/-- Where a job stands. -/
inductive Phase where
  | idle | loading | processing | ready | failed
deriving DecidableEq, Repr

def Phase.name : Phase → String
  | .idle => "idle"
  | .loading => "loading"
  | .processing => "processing"
  | .ready => "ready"
  | .failed => "failed"

/-- One treatment of a program. -/
structure Run where
  generation : Nat
  program : Program
deriving DecidableEq, Repr

/-- The state of a job. -/
structure Job where
  phase : Phase := .idle
  /-- The generation of the newest run. -/
  generation : Nat := 0
  /-- The run that can be cancelled. -/
  token : Option Nat := none
  /-- The runs whose cancellation was requested. -/
  cancelled : List Nat := []
  program : Option Program := none
  failure : List Diagnostic := []
  snapshot : Option Snapshot := none
  /-- The generation under which look-ups are answered. -/
  live : Nat := 0

/-- What a section of a job's life leaves behind, announces and answers. -/
structure Section (α : Type) where
  job : Job
  announces : Option Event
  answer : α

namespace Job

/-- Whether the cancellation of a run was requested. -/
def isCancelled (j : Job) (generation : Nat) : Bool := j.cancelled.contains generation

/-- Announces the run that can be cancelled to give up, and counts a new generation. The published course
is withdrawn. -/
def supersede (j : Job) : Job :=
  { j with
    generation := j.generation + 1
    token := none
    cancelled := j.token.toList ++ j.cancelled
    snapshot := none
    live := j.generation + 1 }

/-- Binds a program and starts a run. -/
def begin (j : Job) (program : Program) : Section Run :=
  let next := j.supersede
  let run : Run := { generation := next.generation, program }
  { job := { next with
      phase := .loading
      token := some run.generation
      program := some program
      failure := [] }
    announces := some (.job (.loaded run.generation program.identity program.lineCount))
    answer := run }

/-- The work of a run starts, unless the run is superseded. -/
def start (j : Job) (run : Run) : Section (Except JobError Unit) :=
  if j.generation = run.generation then
    { job := { j with phase := .processing }
      announces := some (.job (.processingStarted run.generation run.program.identity))
      answer := .ok () }
  else { job := j, announces := none, answer := .error (.superseded run.generation) }

/-- What a run came to: a course that was finished after the run was cancelled does not count. -/
def outcome (j : Job) (run : Run) (result : Except JobError Timeline) : Except JobError Timeline :=
  match result with
  | .ok timeline =>
    if j.isCancelled run.generation then .error (.cancelled run.program.identity) else .ok timeline
  | .error cause => .error cause

/-- The work of a run ends: its course is published, or the job fails. A superseded run is
discarded. -/
def finish (j : Job) (run : Run) (result : Except JobError Timeline) :
    Section (Except JobError Snapshot) :=
  if j.generation = run.generation then
    match j.outcome run result with
    | .ok timeline =>
      let snapshot := Snapshot.ofTimeline run.generation run.program timeline
      { job := { j with
          phase := .ready
          token := none
          snapshot := some snapshot
          live := run.generation }
        announces := some (.job (.processingFinished run.generation run.program.identity
          snapshot.moveCount snapshot.diagnostics.length))
        answer := .ok snapshot }
    | .error cause =>
      { job := { j with phase := .failed, token := none, failure := [.ofJob cause] }
        announces :=
          some (.job (.processingFailed run.generation run.program.identity cause.message))
        answer := .error cause }
  else { job := j, announces := none, answer := .error (.superseded run.generation) }

/-- Whether a run is in flight. -/
def isBusy (j : Job) : Bool := j.phase = .loading || j.phase = .processing

/-- Announces the run in flight to give up, and answers whether there was one. -/
def cancel (j : Job) : Section Bool :=
  match j.token, j.isBusy with
  | some generation, true =>
    { job := { j with cancelled := generation :: j.cancelled }, announces := none, answer := true }
  | _, _ => { job := j, announces := none, answer := false }

/-- Drops the program and everything that came of it. -/
def reset (j : Job) : Section Unit where
  job := { j.supersede with phase := .idle, program := none, failure := [] }
  announces := some (.job .reset)
  answer := ()

/-- A program could not be read. The program that was bound before stays bound. -/
def failUnreadable (j : Job) (identity reason : String) : Section JobError :=
  let cause := JobError.unreadable identity reason
  let next := j.supersede
  { job := { next with phase := .failed, failure := [.ofJob cause] }
    announces := some (.job (.processingFailed next.generation identity cause.message))
    answer := cause }

end Job

end Toolpath
