import Toolpath.Job

/-!
# A job and its outstanding runs

Any number of parties use one `Job` at the same time. Each section holds the lifecycle lock, so
what they do together is a sequence of *turns*, in any order. A run is begun in one turn, started in a
later one and finished in a later one still; between these turns it is *outstanding*, and any other
turns may come in between.

* `JobSystem`: a job with its outstanding runs.
* `JobSystem.take`: one turn, with what it publishes. A run starts at most once and finishes at most
  once, after it was started; a turn that asks for anything else changes nothing.
* `JobSystem.through`, `JobSystem.publications`: a sequence of turns. `JobSystem.after` is one from the
  beginning, so that every state in which a job can ever be is `after setup turns` for some turns.
* `JobSystem.Change`: all that a turn can do, with the conditions under which it does it
  (`take_change`). Invariants are read off it, and none of them opens a section again; `through_keeps`
  takes them along a sequence of turns.
-/

namespace Toolpath

/-- One section of a job's life, entered by some party. -/
inductive Turn where
  | begin (program : Program)
  | start (run : Run)
  /-- The work of a run ends. `seen` tells before which lines the work found its run cancelled. -/
  | finish (run : Run) (mint : Nat → MoveId) (seen : Nat → Bool)
  | cancel
  | reset
  | failUnreadable (identity reason : String)

/-- Whether a turn makes all runs before it obsolete. -/
def Turn.supersedes : Turn → Bool
  | .begin _ | .reset | .failUnreadable _ _ => true
  | .start _ | .finish _ _ _ | .cancel => false

/-- A job with its outstanding runs. -/
structure JobSystem where
  job : Job := {}
  /-- The runs that were begun and have not started. -/
  waiting : List Run := []
  /-- The runs that have started and not finished. -/
  working : List Run := []

namespace JobSystem

/-- The runs that were begun and have not come to an end. -/
def outstanding (w : JobSystem) : List Run := w.waiting ++ w.working

/-- A run is handed to its worker, unless it is superseded. -/
def start (w : JobSystem) (run : Run) : JobSystem :=
  let done := w.job.start run
  let taken := match done.answer with
    | .ok () => [run]
    | .error _ => []
  { job := done.job, waiting := w.waiting.erase run, working := taken ++ w.working }

/-- The worker of a run comes back with what the run came to. -/
def finish (w : JobSystem) (run : Run) (result : Except JobError Timeline) :
    JobSystem × List Snapshot :=
  let done := w.job.finish run result
  ({ w with job := done.job, working := w.working.erase run }, done.answer.toOption.toList)

/-- One turn, with what it publishes. -/
def take (setup : Setup) (w : JobSystem) : Turn → JobSystem × List Snapshot
  | .begin program =>
    let done := w.job.begin program
    ({ w with job := done.job, waiting := done.answer :: w.waiting }, [])
  | .start run => if run ∈ w.waiting then (w.start run, []) else (w, [])
  | .finish run mint seen =>
    if run ∈ w.working then w.finish run (Timeline.run setup mint seen run.program) else (w, [])
  | .cancel => ({ w with job := w.job.cancel.job }, [])
  | .reset => ({ w with job := w.job.reset.job }, [])
  | .failUnreadable identity reason =>
    ({ w with job := (w.job.failUnreadable identity reason).job }, [])

/-! ## Sequences of turns -/

/-- The state after a sequence of turns. -/
def through (setup : Setup) (w : JobSystem) (turns : List Turn) : JobSystem :=
  (emitAll (take setup) w turns).1

/-- What a sequence of turns publishes, in order. -/
def publications (setup : Setup) (w : JobSystem) (turns : List Turn) : List Snapshot :=
  (emitAll (take setup) w turns).2.toList

/-- The state after a sequence of turns on a new job. -/
def after (setup : Setup) (turns : List Turn) : JobSystem := through setup {} turns

/-- A run that was begun in the course of some turns on a new job. -/
def Begun (setup : Setup) (turns : List Turn) (run : Run) : Prop :=
  ∃ before program later, turns = before ++ .begin program :: later ∧
    ((after setup before).job.begin program).answer = run

section Turns

variable (setup : Setup) (w : JobSystem)

@[simp] theorem through_nil : w.through setup [] = w := rfl

@[simp] theorem through_cons (turn : Turn) (turns : List Turn) :
    w.through setup (turn :: turns) = (w.take setup turn).1.through setup turns := by
  simp only [through, emitAll_cons]

theorem through_append (xs ys : List Turn) :
    w.through setup (xs ++ ys) = (w.through setup xs).through setup ys := by
  simp only [through, emitAll_append]

@[simp] theorem publications_nil : w.publications setup [] = [] := rfl

@[simp] theorem publications_cons (turn : Turn) (turns : List Turn) :
    w.publications setup (turn :: turns) =
      (w.take setup turn).2 ++ (w.take setup turn).1.publications setup turns := by
  simp only [publications, emitAll_cons, Array.toList_append]

theorem after_append (xs ys : List Turn) :
    after setup (xs ++ ys) = (after setup xs).through setup ys :=
  through_append setup {} xs ys

end Turns

/-! ## All that a turn can do -/

/-- What one turn makes of a system, and what it publishes. -/
inductive Change (w : JobSystem) : JobSystem → List Snapshot → Prop
  /-- The turn was not possible, or there was nothing to cancel. -/
  | nothing : Change w w []
  | begin (program : Program) :
      Change w
        { w with
          job := { w.job.supersede with
            phase := .loading
            token := some (w.job.generation + 1)
            program := some program
            failure := [] }
          waiting := ⟨w.job.generation + 1, program⟩ :: w.waiting } []
  /-- A superseded run does not start. -/
  | discard (run : Run) (hw : run ∈ w.waiting) (hg : w.job.generation ≠ run.generation) :
      Change w { w with waiting := w.waiting.erase run } []
  | start (run : Run) (hw : run ∈ w.waiting) (hg : w.job.generation = run.generation) :
      Change w
        { job := { w.job with phase := .processing }
          waiting := w.waiting.erase run
          working := run :: w.working } []
  /-- What a superseded run came to is dropped. -/
  | drop (run : Run) (hw : run ∈ w.working) (hg : w.job.generation ≠ run.generation) :
      Change w { w with working := w.working.erase run } []
  | publish (run : Run) (timeline : Timeline) (hw : run ∈ w.working)
      (hg : w.job.generation = run.generation) (hc : w.job.isCancelled run.generation = false) :
      Change w
        { w with
          job := { w.job with
            phase := .ready
            token := none
            snapshot := some (.ofTimeline run.generation run.program timeline)
            live := run.generation }
          working := w.working.erase run }
        [.ofTimeline run.generation run.program timeline]
  /-- A run fails only because it was cancelled. -/
  | fail (run : Run) (hw : run ∈ w.working) (hg : w.job.generation = run.generation) :
      Change w
        { w with
          job := { w.job with
            phase := .failed
            token := none
            failure := [.ofJob (.cancelled run.program.identity)] }
          working := w.working.erase run } []
  | cancel (generation : Nat) (ht : w.job.token = some generation) (hb : w.job.isBusy = true) :
      Change w { w with job := { w.job with cancelled := generation :: w.job.cancelled } } []
  | reset :
      Change w { w with job := { w.job.supersede with phase := .idle, program := none, failure := [] } } []
  | failUnreadable (identity reason : String) :
      Change w
        { w with job := { w.job.supersede with
            phase := .failed
            failure := [.ofJob (.unreadable identity reason)] } } []

end JobSystem

/-- A course is given up only because it was cancelled. -/
theorem Timeline.run_error {setup : Setup} {mint : Nat → MoveId} {seen : Nat → Bool}
    {program : Program} {cause : JobError} (h : Timeline.run setup mint seen program = .error cause) :
    cause = .cancelled program.identity := by
  unfold Timeline.run at h
  split at h <;> cases h
  rfl

namespace Job

theorem isBusy_iff {j : Job} : j.isBusy = true ↔ j.phase = .loading ∨ j.phase = .processing := by
  simp [isBusy]

theorem start_of_current {j : Job} {run : Run} (hg : j.generation = run.generation) :
    j.start run =
      { job := { j with phase := .processing }
        announces := some (.job (.processingStarted run.generation run.program.identity))
        answer := .ok () } := by
  rw [start, if_pos hg]

/-- A superseded run does not start, and changes nothing. -/
theorem start_of_superseded {j : Job} {run : Run} (hg : j.generation ≠ run.generation) :
    j.start run =
      { job := j, announces := none, answer := .error (.superseded run.generation) } := by
  rw [start, if_neg hg]

/-- What a superseded run came to is dropped, and changes nothing. -/
theorem finish_of_superseded {j : Job} {run : Run} (hg : j.generation ≠ run.generation)
    (result : Except JobError Timeline) :
    j.finish run result =
      { job := j, announces := none, answer := .error (.superseded run.generation) } := by
  rw [finish, if_neg hg]

/-- The course of a run counts exactly if the run was not cancelled. -/
theorem outcome_eq_ok_iff {j : Job} {run : Run} {result : Except JobError Timeline}
    {timeline : Timeline} :
    j.outcome run result = .ok timeline ↔
      result = .ok timeline ∧ j.isCancelled run.generation = false := by
  cases result with
  | error cause => simp [outcome]
  | ok found => cases hc : j.isCancelled run.generation <;> simp [outcome, hc]

/-- A run is published exactly if it is the newest one and its course counts. -/
theorem finish_answer_eq_ok_iff {j : Job} {run : Run} {result : Except JobError Timeline}
    {s : Snapshot} :
    (j.finish run result).answer = .ok s ↔
      j.generation = run.generation ∧ ∃ timeline, j.outcome run result = .ok timeline ∧
        s = .ofTimeline run.generation run.program timeline := by
  by_cases hg : j.generation = run.generation
  · cases ho : j.outcome run result with
    | ok timeline => simp [finish, hg, ho, eq_comm]
    | error cause => simp [finish, hg, ho]
  · simp [finish_of_superseded hg, hg]

/-- A run comes to nothing only because it was cancelled. -/
theorem outcome_error {setup : Setup} {mint : Nat → MoveId} {seen : Nat → Bool} {j : Job} {run : Run}
    {cause : JobError} (h : j.outcome run (Timeline.run setup mint seen run.program) = .error cause) :
    cause = .cancelled run.program.identity := by
  cases hr : Timeline.run setup mint seen run.program with
  | error found =>
    rw [hr, outcome] at h
    cases h
    exact Timeline.run_error hr
  | ok timeline =>
    simp only [hr, outcome] at h
    split at h <;> cases h
    rfl

end Job

namespace JobSystem

theorem start_change {w : JobSystem} {run : Run} (hw : run ∈ w.waiting) :
    Change w (w.start run) [] := by
  by_cases hg : w.job.generation = run.generation
  · rw [start, Job.start_of_current hg]
    exact .start run hw hg
  · rw [start, Job.start_of_superseded hg]
    exact .discard run hw hg

theorem finish_change {setup : Setup} {mint : Nat → MoveId} {seen : Nat → Bool} {w : JobSystem}
    {run : Run} (hw : run ∈ w.working) :
    Change w (w.finish run (Timeline.run setup mint seen run.program)).1
      (w.finish run (Timeline.run setup mint seen run.program)).2 := by
  by_cases hg : w.job.generation = run.generation
  · cases ho : w.job.outcome run (Timeline.run setup mint seen run.program) with
    | ok timeline =>
      simp only [finish, Job.finish, if_pos hg, ho]
      exact .publish run timeline hw hg (Job.outcome_eq_ok_iff.mp ho).2
    | error cause =>
      obtain rfl := Job.outcome_error ho
      simp only [finish, Job.finish, if_pos hg, ho]
      exact .fail run hw hg
  · rw [finish, Job.finish_of_superseded hg]
    exact .drop run hw hg

theorem cancel_change (w : JobSystem) : Change w { w with job := w.job.cancel.job } [] := by
  unfold Job.cancel
  split
  · rename_i generation ht hb
    exact .cancel generation ht hb
  · exact .nothing

/-- **Inversion.** Every turn does one of the things that `Change` lists. -/
theorem take_change (setup : Setup) (w : JobSystem) (turn : Turn) :
    Change w (w.take setup turn).1 (w.take setup turn).2 := by
  cases turn with
  | begin program => exact .begin program
  | start run =>
    by_cases hw : run ∈ w.waiting
    · rw [take, if_pos hw]; exact start_change hw
    · rw [take, if_neg hw]; exact .nothing
  | finish run mint seen =>
    by_cases hw : run ∈ w.working
    · rw [take, if_pos hw]; exact finish_change hw
    · rw [take, if_neg hw]; exact .nothing
  | cancel => exact cancel_change w
  | reset => exact .reset
  | failUnreadable identity reason => exact .failUnreadable identity reason

/-- **Induction.** What every change keeps is kept by every sequence of turns. -/
theorem through_keeps (setup : Setup) {P : JobSystem → Prop}
    (hstep : ∀ w v out, Change w v out → P w → P v) {w : JobSystem} (h : P w) (turns : List Turn) :
    P (w.through setup turns) := by
  induction turns generalizing w with
  | nil => exact h
  | cons turn turns ih =>
    rw [through_cons]
    exact ih (hstep w _ _ (take_change setup w turn) h)

end JobSystem

end Toolpath
