import Toolpath.Proofs.Job.System

/-!
# The lifecycle of a job

The fields of `Lifecycle` and `JobInner` follow from the phase, whatever the parties did and in whatever
order.

* `Job.Fits`: what a job holds in each phase.
* `JobSystem.Sound`: the invariant. Besides `Fits` it says where the newest run is: it waits exactly
  while the job loads and works exactly while the job processes, and its program is the bound one.
  Without this part a late start or finish could break the rest.
* `Change.sound`: every change keeps the invariant; `after_sound`: so every sequence of turns does.
* `after_coherent`: the fields of a job agree in every state that any turns lead to.
-/

namespace Toolpath

/-- What a job holds in its phase. -/
def Job.Fits (j : Job) : Prop :=
  match j.phase with
  | .idle => j.token = none ∧ j.program = none ∧ j.failure = [] ∧ j.snapshot = none
  | .loading | .processing =>
    j.token = some j.generation ∧ j.program.isSome ∧ j.failure = [] ∧ j.snapshot = none
  | .ready => j.token = none ∧ j.failure = [] ∧ ∃ program timeline, j.program = some program ∧
      j.snapshot = some (.ofTimeline j.generation program timeline)
  | .failed => j.token = none ∧ j.failure.length = 1 ∧ j.snapshot = none

namespace JobSystem

/-! ## Outstanding runs -/

section Outstanding

variable {w : JobSystem} {run : Run}

theorem perm_of_waiting (hw : run ∈ w.waiting) :
    w.outstanding.Perm (run :: (w.waiting.erase run ++ w.working)) :=
  (List.perm_cons_erase hw).append_right w.working

theorem perm_of_working (hw : run ∈ w.working) :
    w.outstanding.Perm (run :: (w.waiting ++ w.working.erase run)) :=
  ((List.perm_cons_erase hw).append_left w.waiting).trans List.perm_middle

/-- What is left of runs of distinct generations after one of them is gone. -/
theorem rest_of_perm {rest : List Run} (hn : (w.outstanding.map Run.generation).Nodup)
    (hp : w.outstanding.Perm (run :: rest)) :
    (rest.map Run.generation).Nodup ∧ ∀ other ∈ rest, other.generation ≠ run.generation := by
  have h := (hp.map Run.generation).nodup_iff.mp hn
  rw [List.map_cons, List.nodup_cons] at h
  refine ⟨h.2, fun other ho he => h.1 ?_⟩
  rw [← he]
  exact List.mem_map_of_mem ho

end Outstanding

/-- The invariant of a system. -/
structure Sound (w : JobSystem) : Prop where
  live : w.job.live = w.job.generation
  fits : w.job.Fits
  /-- If the newest run waits, the job loads its program. -/
  waiting : ∀ run ∈ w.waiting, run.generation = w.job.generation →
    w.job.phase = .loading ∧ w.job.program = some run.program
  /-- If the newest run works, the job processes its program. -/
  working : ∀ run ∈ w.working, run.generation = w.job.generation →
    w.job.phase = .processing ∧ w.job.program = some run.program
  loading : w.job.phase = .loading → ∃ run ∈ w.waiting, run.generation = w.job.generation
  processing : w.job.phase = .processing → ∃ run ∈ w.working, run.generation = w.job.generation
  le : ∀ run ∈ w.outstanding, run.generation ≤ w.job.generation
  nodup : (w.outstanding.map Run.generation).Nodup

theorem sound_empty : Sound {} where
  live := rfl
  fits := ⟨rfl, rfl, rfl, rfl⟩
  waiting := by intro run hr; cases hr
  working := by intro run hr; cases hr
  loading := by intro h; cases h
  processing := by intro h; cases h
  le := by intro run hr; cases hr
  nodup := List.nodup_nil

namespace Sound

variable {w : JobSystem}

theorem waiting_le (h : w.Sound) {run : Run} (hw : run ∈ w.waiting) :
    run.generation ≤ w.job.generation :=
  h.le run (List.mem_append_left _ hw)

theorem working_le (h : w.Sound) {run : Run} (hw : run ∈ w.working) :
    run.generation ≤ w.job.generation :=
  h.le run (List.mem_append_right _ hw)

/-- A new generation without a run of its own: all outstanding runs are obsolete. -/
theorem of_superseded (h : w.Sound) {j : Job} (hg : j.generation = w.job.generation + 1)
    (hl : j.live = j.generation) (hf : j.Fits) (hb : j.isBusy = false) :
    Sound { w with job := j } := by
  have hp := not_or.mp (mt Job.isBusy_iff.mpr (Bool.eq_false_iff.mp hb))
  refine ⟨hl, hf, fun run hw he => ?_, fun run hw he => ?_, fun hp' => absurd hp' hp.1,
    fun hp' => absurd hp' hp.2, fun run hr => ?_, h.nodup⟩
  · have := h.waiting_le hw
    simp only at he
    omega
  · have := h.working_le hw
    simp only at he
    omega
  · have := h.le run hr
    simp only
    omega

theorem begin (h : w.Sound) (program : Program) :
    Sound
      { w with
        job := { w.job.supersede with
          phase := .loading
          token := some (w.job.generation + 1)
          program := some program
          failure := [] }
        waiting := ⟨w.job.generation + 1, program⟩ :: w.waiting } where
  live := rfl
  fits := ⟨rfl, rfl, rfl, rfl⟩
  waiting := by
    intro run hr he
    rcases List.mem_cons.mp hr with rfl | hr
    · exact ⟨rfl, rfl⟩
    · have := h.waiting_le hr
      simp only [Job.supersede] at he
      omega
  working := by
    intro run hr he
    have := h.working_le hr
    simp only [Job.supersede] at he
    omega
  loading := fun _ => ⟨_, List.mem_cons_self, rfl⟩
  processing := by intro hp; cases hp
  le := by
    intro run hr
    simp only [outstanding, List.cons_append, List.mem_cons, Job.supersede] at hr ⊢
    rcases hr with rfl | hr
    · exact Nat.le_refl _
    · exact Nat.le_succ_of_le (h.le run hr)
  nodup := by
    simp only [outstanding, List.cons_append, List.map_cons, List.nodup_cons]
    refine ⟨fun hm => ?_, h.nodup⟩
    obtain ⟨run, hr, he⟩ := List.mem_map.mp hm
    have := h.le run hr
    omega

/-- A superseded run that does not start is only forgotten. -/
theorem discard (h : w.Sound) {run : Run} (hw : run ∈ w.waiting)
    (hg : w.job.generation ≠ run.generation) : Sound { w with waiting := w.waiting.erase run } where
  live := h.live
  fits := h.fits
  waiting other ho := h.waiting other (List.mem_of_mem_erase ho)
  working := h.working
  loading hp := by
    obtain ⟨newest, hn, he⟩ := h.loading hp
    refine ⟨newest, (List.mem_erase_of_ne ?_).mpr hn, he⟩
    rintro rfl
    exact hg he.symm
  processing := h.processing
  le other ho := h.le other ((perm_of_waiting hw).mem_iff.mpr (List.mem_cons_of_mem _ ho))
  nodup := (rest_of_perm h.nodup (perm_of_waiting hw)).1

theorem start (h : w.Sound) {run : Run} (hw : run ∈ w.waiting)
    (hg : w.job.generation = run.generation) :
    Sound
      { job := { w.job with phase := .processing }
        waiting := w.waiting.erase run
        working := run :: w.working } := by
  obtain ⟨hp, hb⟩ := h.waiting run hw hg.symm
  obtain ⟨hn, hne⟩ := rest_of_perm h.nodup (perm_of_waiting hw)
  have hm : (w.waiting.erase run ++ run :: w.working).Perm w.outstanding :=
    List.perm_middle.trans (perm_of_waiting hw).symm
  refine ⟨h.live, ?_, fun other ho he => ?_, fun other ho he => ?_, ?_,
    fun _ => ⟨run, List.mem_cons_self, hg.symm⟩, fun other ho => h.le other (hm.mem_iff.mp ho),
    (hm.map _).nodup_iff.mpr h.nodup⟩
  · have := h.fits
    simp only [Job.Fits, hp] at this
    exact this
  · exact absurd (he.trans hg) (hne other (List.mem_append_left _ ho))
  · rcases List.mem_cons.mp ho with rfl | ho
    · exact ⟨rfl, hb⟩
    · exact absurd (he.trans hg) (hne other (List.mem_append_right _ ho))
  · intro hp'
    cases hp'

/-- A superseded run that has worked for nothing is only forgotten. -/
theorem drop (h : w.Sound) {run : Run} (hw : run ∈ w.working)
    (hg : w.job.generation ≠ run.generation) : Sound { w with working := w.working.erase run } where
  live := h.live
  fits := h.fits
  waiting := h.waiting
  working other ho := h.working other (List.mem_of_mem_erase ho)
  loading := h.loading
  processing hp := by
    obtain ⟨newest, hn, he⟩ := h.processing hp
    refine ⟨newest, (List.mem_erase_of_ne ?_).mpr hn, he⟩
    rintro rfl
    exact hg he.symm
  le other ho := h.le other ((perm_of_working hw).mem_iff.mpr (List.mem_cons_of_mem _ ho))
  nodup := (rest_of_perm h.nodup (perm_of_working hw)).1

/-- The newest run comes to an end: no outstanding run is current any more. -/
theorem conclude (h : w.Sound) {run : Run} (hw : run ∈ w.working)
    (hg : w.job.generation = run.generation) {j : Job} (hj : j.generation = w.job.generation)
    (hl : j.live = j.generation) (hf : j.Fits) (hb : j.isBusy = false) :
    Sound { w with job := j, working := w.working.erase run } := by
  obtain ⟨hn, hne⟩ := rest_of_perm h.nodup (perm_of_working hw)
  have hp := not_or.mp (mt Job.isBusy_iff.mpr (Bool.eq_false_iff.mp hb))
  have hc : run.generation = j.generation := (hj.trans hg).symm
  refine ⟨hl, hf, fun other ho he => ?_, fun other ho he => ?_, fun hp' => absurd hp' hp.1,
    fun hp' => absurd hp' hp.2, fun other ho => ?_, hn⟩
  · exact absurd (he.trans hc.symm) (hne other (List.mem_append_left _ ho))
  · exact absurd (he.trans hc.symm) (hne other (List.mem_append_right _ ho))
  · rw [hj]
    exact h.le other ((perm_of_working hw).mem_iff.mpr (List.mem_cons_of_mem _ ho))

/-- A token that is set changes nothing else. -/
theorem cancel (h : w.Sound) (generation : Nat) :
    Sound { w with job := { w.job with cancelled := generation :: w.job.cancelled } } where
  live := h.live
  fits := h.fits
  waiting := h.waiting
  working := h.working
  loading := h.loading
  processing := h.processing
  le := h.le
  nodup := h.nodup

end Sound

/-- **Step.** Every change keeps the invariant. -/
theorem Change.sound {w v : JobSystem} {out : List Snapshot} (hc : Change w v out) (h : w.Sound) :
    v.Sound := by
  cases hc with
  | nothing => exact h
  | begin program => exact h.begin program
  | discard run hw hg => exact h.discard hw hg
  | start run hw hg => exact h.start hw hg
  | drop run hw hg => exact h.drop hw hg
  | publish run timeline hw hg _ =>
    obtain ⟨hp, hb⟩ := h.working run hw hg.symm
    have hf := h.fits
    simp only [Job.Fits, hp] at hf
    refine h.conclude hw hg rfl hg.symm ⟨rfl, hf.2.2.1, run.program, timeline, hb, ?_⟩ rfl
    simp only [hg]
  | fail run hw hg =>
    obtain ⟨hp, -⟩ := h.working run hw hg.symm
    have hf := h.fits
    simp only [Job.Fits, hp] at hf
    exact h.conclude hw hg rfl h.live ⟨rfl, rfl, hf.2.2.2⟩ rfl
  | cancel generation _ _ => exact h.cancel generation
  | reset => exact h.of_superseded rfl rfl ⟨rfl, rfl, rfl, rfl⟩ rfl
  | failUnreadable identity reason => exact h.of_superseded rfl rfl ⟨rfl, rfl, rfl⟩ rfl

theorem through_sound (setup : Setup) {w : JobSystem} (h : w.Sound) (turns : List Turn) :
    (w.through setup turns).Sound :=
  through_keeps setup (fun _ _ _ hc => hc.sound) h turns

/-- **Run.** Every sequence of turns on a new job leads to a sound state. -/
theorem after_sound (setup : Setup) (turns : List Turn) : (after setup turns).Sound :=
  through_sound setup sound_empty turns

end JobSystem

/-! ## Agreement of the fields -/

/-- The fields of a job agree with each other. -/
structure Job.Coherent (j : Job) : Prop where
  /-- Look-ups are answered under the generation of the newest run. -/
  live : j.live = j.generation
  /-- A course is published exactly while the job is ready. -/
  snapshot_iff : j.snapshot.isSome ↔ j.phase = .ready
  /-- A published course and its tables carry the live generation; it is one of the bound program. -/
  snapshot : ∀ s, j.snapshot = some s →
    s.generation = j.live ∧ s.index.generation = j.live ∧ j.program = some s.program
  /-- There is a run to cancel exactly while one is in flight. -/
  token_iff : j.token.isSome ↔ j.phase = .loading ∨ j.phase = .processing
  cancel_iff : j.cancel.answer = true ↔ j.phase = .loading ∨ j.phase = .processing
  /-- A failure has one reason. -/
  failed : j.phase = .failed → ∃ reason, j.failure = [reason]
  not_failed : j.phase ≠ .failed → j.failure = []
  bound : j.phase = .loading ∨ j.phase = .processing ∨ j.phase = .ready → j.program.isSome
  unbound : j.phase = .idle → j.program = none

/-- Cancelling finds a run exactly if there is one to cancel and it is in flight. -/
theorem Job.cancel_answer (j : Job) : j.cancel.answer = (j.token.isSome && j.isBusy) := by
  cases ht : j.token <;> cases hb : j.isBusy <;> simp [Job.cancel, ht, hb]

/-- What a job holds in its phase agrees. -/
theorem Job.Fits.coherent {j : Job} (hf : j.Fits) (hl : j.live = j.generation) : j.Coherent := by
  have hc := j.cancel_answer
  cases hp : j.phase with
  | idle | loading | processing =>
    simp only [Job.Fits, hp] at hf
    obtain ⟨ht, hb, hr, hs⟩ := hf
    constructor <;> simp_all [Job.isBusy]
  | ready =>
    simp only [Job.Fits, hp] at hf
    obtain ⟨ht, hr, program, timeline, hb, hs⟩ := hf
    constructor <;> simp_all [Job.isBusy, Snapshot.ofTimeline, SelectionIndex.ofMoves]
  | failed =>
    simp only [Job.Fits, hp, List.length_eq_one_iff] at hf
    obtain ⟨ht, hr, hs⟩ := hf
    constructor <;> simp_all [Job.isBusy]

/-- In every state that any turns lead to, the fields of the job agree. -/
theorem JobSystem.after_coherent (setup : Setup) (turns : List Turn) :
    (JobSystem.after setup turns).job.Coherent :=
  (after_sound setup turns).fits.coherent (after_sound setup turns).live

end Toolpath
