import Toolpath.Proofs.Job.System

/-!
# Reloads among other turns

`Job.reload` takes two turns: it reads the bound program in one, and begins a run of it in another. Any
other turns may come in between, those of other reloads too.

* `Reloads.take`: one turn, with the programs that reloads have read and not begun with yet.
* `Reloads.Sound`: as long as no run has begun since a reload read its program, and the job was neither
  reset nor failed, that program is the bound one. `after_sound`: this holds whatever turns are taken.
* `Reloads.resume_binds`: the program that a reload begins with is the one it read. So a reload undoes a
  load that came in between (`resume_undoes_load`), and wakes a job that was reset (`resume_wakes`).
-/

namespace Toolpath

/-- A program that a reload has read, with the generation of the job at that time. -/
structure Reading where
  program : Program
  generation : Nat
deriving DecidableEq, Repr

/-- A job with the reloads that have read its program and not begun a run of it. -/
structure Reloads where
  system : JobSystem := {}
  readings : List Reading := []

namespace Reloads

/-- A turn of some party. -/
inductive Act where
  /-- Any turn that is not one of a reload. -/
  | turn (turn : Turn)
  /-- A reload reads the bound program; without one it ends. -/
  | read
  /-- A reload begins a run of what it read. -/
  | resume (reading : Reading)

def job (r : Reloads) : Job := r.system.job

/-- The bound program, as a reload reads it. -/
def reading? (r : Reloads) : Option Reading :=
  r.job.program.map fun program => { program, generation := r.job.generation }

/-- One turn. A reload that has read nothing begins no run. -/
def take (setup : Setup) (r : Reloads) : Act → Reloads
  | .turn turn => { r with system := (r.system.take setup turn).1 }
  | .read => { r with readings := r.reading?.toList ++ r.readings }
  | .resume reading =>
    if reading ∈ r.readings then
      { system := (r.system.take setup (.begin reading.program)).1
        readings := r.readings.erase reading }
    else r

/-- The state after a sequence of turns. -/
def through (setup : Setup) (r : Reloads) (acts : List Act) : Reloads := acts.foldl (take setup) r

/-- The state after a sequence of turns on a new job. -/
def after (setup : Setup) (acts : List Act) : Reloads := through setup {} acts

/-! ## What a reload has read -/

/-- A program that was read under the present generation is the bound one. -/
structure Sound (r : Reloads) : Prop where
  le : ∀ reading ∈ r.readings, reading.generation ≤ r.job.generation
  bound : ∀ reading ∈ r.readings, reading.generation = r.job.generation →
    r.job.program = some reading.program

end Reloads

/-- A change that keeps the generation of a job keeps its program. -/
theorem JobSystem.Change.generation_program {w v : JobSystem} {out : List Snapshot} (h : Change w v out) :
    w.job.generation < v.job.generation ∨
      v.job.generation = w.job.generation ∧ v.job.program = w.job.program := by
  cases h with
  | begin | reset | failUnreadable => exact .inl (Nat.lt_succ_self _)
  | nothing | discard | start | drop | publish | fail | cancel => exact .inr ⟨rfl, rfl⟩

namespace Reloads

variable {setup : Setup} {r : Reloads}

/-- Changes of the system keep what reloads know of it. -/
theorem Sound.change {v : JobSystem} {out : List Snapshot} {readings : List Reading} (h : r.Sound)
    (hc : r.system.Change v out) (hs : ∀ reading ∈ readings, reading ∈ r.readings) :
    Sound { system := v, readings } := by
  have hle : ∀ reading ∈ readings, reading.generation ≤ r.system.job.generation :=
    fun reading hr => h.le reading (hs reading hr)
  rcases hc.generation_program with hlt | ⟨hg, hp⟩
  · constructor
    · intro reading hr
      exact Nat.le_of_lt (Nat.lt_of_le_of_lt (hle reading hr) hlt)
    · intro reading hr he
      -- nothing was read under the new generation yet
      exact absurd he (Nat.ne_of_lt (Nat.lt_of_le_of_lt (hle reading hr) hlt))
  · constructor
    · intro reading hr
      exact Nat.le_trans (hle reading hr) (Nat.le_of_eq hg.symm)
    · intro reading hr he
      exact hp.trans (h.bound reading (hs reading hr) (he.trans hg))

/-- Every turn keeps what reloads know of the job. -/
theorem Sound.take (h : r.Sound) (act : Act) : (r.take setup act).Sound := by
  cases act with
  | turn turn => exact h.change (r.system.take_change setup turn) fun _ hr => hr
  | read =>
    have hmem : ∀ reading ∈ r.reading?.toList ++ r.readings,
        reading ∈ r.readings ∨ r.job.program = some reading.program ∧
          reading.generation = r.job.generation := by
      intro reading hr
      rcases List.mem_append.mp hr with hr | hr
      · rw [Option.mem_toList] at hr
        obtain ⟨program, hp, rfl⟩ := Option.map_eq_some_iff.mp hr
        exact .inr ⟨hp, rfl⟩
      · exact .inl hr
    constructor
    · intro reading hr
      rcases hmem reading hr with hr | ⟨-, hg⟩
      · exact h.le reading hr
      · exact Nat.le_of_eq hg
    · intro reading hr he
      rcases hmem reading hr with hr | ⟨hp, -⟩
      · exact h.bound reading hr he
      · exact hp
  | resume reading =>
    by_cases hr : reading ∈ r.readings
    · rw [Reloads.take, if_pos hr]
      exact h.change (r.system.take_change setup (.begin reading.program))
        fun _ ho => List.mem_of_mem_erase ho
    · rw [Reloads.take, if_neg hr]
      exact h

theorem Sound.through (h : r.Sound) (acts : List Act) : (r.through setup acts).Sound := by
  induction acts generalizing r with
  | nil => exact h
  | cons act acts ih => exact ih (h.take act)

/-- Whatever turns are taken, a program that was read under the present generation is the bound one. -/
theorem after_sound (setup : Setup) (acts : List Act) : (after setup acts).Sound := by
  refine Sound.through ⟨?_, ?_⟩ acts
  · intro reading hr
    cases hr
  · intro reading hr
    cases hr

/-! ## What a reload binds -/

/-- **A reload binds the program that it read.** If the generation is still the one it was read under, this
is the program that is bound already. -/
theorem resume_binds (setup : Setup) (acts : List Act) {reading : Reading}
    (hr : reading ∈ (after setup acts).readings) :
    ((after setup acts).take setup (.resume reading)).job.program = some reading.program ∧
      (reading.generation = (after setup acts).job.generation →
        (after setup acts).job.program = some reading.program) := by
  constructor
  · rw [take, if_pos hr]
    rfl
  · exact (after_sound setup acts).bound reading hr

/-- A load that begins between the two turns of a reload is undone by it. -/
theorem resume_undoes_load :
    let first : Program := ⟨"a.nc", "G1 X1"⟩
    let second : Program := ⟨"b.nc", "G1 X2"⟩
    let r := after {} [.turn (.begin first), .read, .turn (.begin second)]
    r.job.program = some second ∧ (r.take {} (.resume ⟨first, 1⟩)).job.program = some first :=
  ⟨rfl, rfl⟩

/-- A reload wakes a job that is reset between its two turns. -/
theorem resume_wakes :
    let first : Program := ⟨"a.nc", "G1 X1"⟩
    let r := after {} [.turn (.begin first), .read, .turn .reset]
    r.job.phase = .idle ∧ (r.take {} (.resume ⟨first, 1⟩)).job.phase = .loading :=
  ⟨rfl, rfl⟩

end Reloads

end Toolpath
