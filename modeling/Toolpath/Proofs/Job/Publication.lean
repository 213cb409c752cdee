import Toolpath.Proofs.Job.Lifecycle

/-!
# What a job publishes

`Job.finish` publishes a course only for the newest run, and only if nobody cancelled it. Old runs may
still be at work when a new one begins, and a run may be cancelled when its course is already complete.

* `JobSystem.Unpublishable`: a generation that can no longer be published. It stays so
  (`Change.unpublishable`), and everything published from then on is newer (`Unpublishable.lt_of_mem`).
* `JobSystem.CancelledInFlight`: a cancelled generation. It fails, or a newer one takes its place.
* `publications_pairwise`: published generations grow.
* `publication_safe`: when a run is published, and what is never published.
-/

namespace Toolpath.JobSystem

/-! ## One turn -/

/-- A change that does not count a new generation sets no token free and begins no run. -/
theorem Change.advances {w v : JobSystem} {out : List Snapshot} (hc : Change w v out) :
    w.job.generation < v.job.generation ∨
      v.job.generation = w.job.generation ∧ w.job.cancelled ⊆ v.job.cancelled ∧
        v.outstanding ⊆ w.outstanding := by
  cases hc with
  | nothing => exact .inr ⟨rfl, fun _ h => h, fun _ h => h⟩
  | begin program => exact .inl (Nat.lt_succ_self _)
  | discard run hw hg =>
    exact .inr ⟨rfl, fun _ h => h, fun _ h => (perm_of_waiting hw).mem_iff.mpr (.tail _ h)⟩
  | start run hw hg =>
    refine .inr ⟨rfl, fun _ h => h, fun _ h => (perm_of_waiting hw).mem_iff.mpr ?_⟩
    exact List.perm_middle.mem_iff.mp h
  | drop run hw hg | publish run timeline hw hg hc | fail run hw hg =>
    exact .inr ⟨rfl, fun _ h => h, fun _ h => (perm_of_working hw).mem_iff.mpr (.tail _ h)⟩
  | cancel generation ht hb => exact .inr ⟨rfl, fun _ h => .tail _ h, fun _ h => h⟩
  | reset => exact .inl (Nat.lt_succ_self _)
  | failUnreadable identity reason => exact .inl (Nat.lt_succ_self _)

theorem Change.generation_le {w v : JobSystem} {out : List Snapshot} (hc : Change w v out) :
    w.job.generation ≤ v.job.generation := by
  rcases hc.advances with hg | ⟨hg, -⟩
  · exact Nat.le_of_lt hg
  · exact Nat.le_of_eq hg.symm

theorem generation_le_through (setup : Setup) (w : JobSystem) (turns : List Turn) :
    w.job.generation ≤ (w.through setup turns).job.generation := by
  refine through_keeps setup (P := fun v => w.job.generation ≤ v.job.generation) ?_ (Nat.le_refl _) turns
  intro u v out hc hu
  exact Nat.le_trans hu hc.generation_le

/-! ## Unpublishable generations -/

/-- A generation that can no longer be published: it is not a later one, and if it is the newest one
then it is cancelled or its run has ended. -/
def Unpublishable (g : Nat) (w : JobSystem) : Prop :=
  g ≤ w.job.generation ∧ (w.job.generation = g →
    w.job.isCancelled g = true ∨ ∀ run ∈ w.outstanding, run.generation ≠ g)

theorem isCancelled_iff {j : Job} {g : Nat} : j.isCancelled g = true ↔ g ∈ j.cancelled := by
  rw [Job.isCancelled, List.contains_iff_mem]

/-- A generation that cannot be published stays so. -/
theorem Change.unpublishable {g : Nat} {w v : JobSystem} {out : List Snapshot} (hc : Change w v out)
    (hb : w.Unpublishable g) : v.Unpublishable g := by
  refine ⟨Nat.le_trans hb.1 hc.generation_le, fun hv => ?_⟩
  rcases hc.advances with hg | ⟨hg, hsub, hout⟩
  · have := hb.1
    omega
  · rcases hb.2 (hg ▸ hv) with ht | hr
    · exact .inl (isCancelled_iff.mpr (hsub (isCancelled_iff.mp ht)))
    · exact .inr fun run ho => hr run (hout ho)

/-- What a change publishes is newer than every generation that cannot be published. -/
theorem Change.lt_of_barred {g : Nat} {w v : JobSystem} {out : List Snapshot} (hc : Change w v out)
    (hb : w.Unpublishable g) : ∀ s ∈ out, g < s.generation := by
  cases hc with
  | publish run timeline hw hg hfree =>
    intro s hs
    obtain rfl := List.mem_singleton.mp hs
    refine Nat.lt_of_le_of_ne (hg ▸ hb.1) fun he => ?_
    have he : g = run.generation := he
    subst he
    rcases hb.2 hg with ht | hr
    · rw [hfree] at ht
      cases ht
    · exact hr run (List.mem_append_right _ hw) rfl
  | _ =>
    intro s hs
    cases hs

/-- What is published cannot be published again: a run ends once. -/
theorem Change.unpublishable_of_mem {w v : JobSystem} {out : List Snapshot} (hc : Change w v out)
    (h : w.Sound) : ∀ s ∈ out, v.Unpublishable s.generation := by
  cases hc with
  | publish run timeline hw hg hfree =>
    intro s hs
    obtain rfl := List.mem_singleton.mp hs
    exact ⟨Nat.le_of_eq hg.symm, fun _ => .inr (rest_of_perm h.nodup (perm_of_working hw)).2⟩
  | _ =>
    intro s hs
    cases hs

/-- Whatever turns follow, what they publish is newer than a generation that cannot be published. -/
theorem Unpublishable.lt_of_mem (setup : Setup) {g : Nat} {w : JobSystem} (hb : w.Unpublishable g)
    (turns : List Turn) : ∀ s ∈ w.publications setup turns, g < s.generation := by
  induction turns generalizing w with
  | nil =>
    intro s hs
    cases hs
  | cons turn turns ih =>
    have hc := take_change setup w turn
    intro s hs
    rw [publications_cons, List.mem_append] at hs
    rcases hs with hs | hs
    · exact hc.lt_of_barred hb s hs
    · exact ih (hc.unpublishable hb) s hs

theorem Unpublishable.not_mem (setup : Setup) {g : Nat} {w : JobSystem} (hb : w.Unpublishable g)
    (turns : List Turn) : g ∉ (w.publications setup turns).map Snapshot.generation := by
  intro hm
  obtain ⟨s, hs, he⟩ := List.mem_map.mp hm
  exact Nat.ne_of_lt (hb.lt_of_mem setup turns s hs) he.symm

theorem unpublishable_of_lt {g : Nat} {w : JobSystem} (hg : g < w.job.generation) : w.Unpublishable g :=
  ⟨Nat.le_of_lt hg, fun he => absurd he.symm (Nat.ne_of_lt hg)⟩

/-- A turn publishes at most one course. -/
theorem Change.out_eq {w v : JobSystem} {out : List Snapshot} (hc : Change w v out) :
    out = [] ∨ ∃ s, out = [s] := by
  cases hc with
  | publish run timeline hw hg hfree => exact .inr ⟨_, rfl⟩
  | _ => exact .inl rfl

/-- Each generation that is published is newer than those published before it. -/
theorem publications_pairwise (setup : Setup) {w : JobSystem} (h : w.Sound) (turns : List Turn) :
    ((w.publications setup turns).map Snapshot.generation).Pairwise (· < ·) := by
  induction turns generalizing w with
  | nil => exact List.Pairwise.nil
  | cons turn turns ih =>
    have hc := take_change setup w turn
    rw [publications_cons, List.map_append, List.pairwise_append]
    refine ⟨?_, ih (hc.sound h), fun a ha b hb => ?_⟩
    · rcases hc.out_eq with he | ⟨s, he⟩ <;> rw [he]
      · exact List.Pairwise.nil
      · exact List.pairwise_singleton _ _
    · obtain ⟨s, hs, rfl⟩ := List.mem_map.mp ha
      obtain ⟨t, ht, rfl⟩ := List.mem_map.mp hb
      exact (hc.unpublishable_of_mem h s hs).lt_of_mem setup turns t ht

/-! ## Cancelled generations -/

/-- A generation that was cancelled while its run was in flight: while it is the newest one, its run
is still in flight or the job has failed for that reason. -/
def CancelledInFlight (g : Nat) (w : JobSystem) : Prop :=
  g ≤ w.job.generation ∧ (w.job.generation = g → w.job.isCancelled g = true ∧
    (w.job.isBusy = true ∨
      w.job.phase = .failed ∧ w.job.failure.map (·.cause.kind) = [.cancellation]))

theorem CancelledInFlight.unpublishable {g : Nat} {w : JobSystem} (hd : w.CancelledInFlight g) : w.Unpublishable g :=
  ⟨hd.1, fun he => .inl (hd.2 he).1⟩

theorem Change.cancelledInFlight {g : Nat} {w v : JobSystem} {out : List Snapshot} (hc : Change w v out)
    (hd : w.CancelledInFlight g) : v.CancelledInFlight g := by
  refine ⟨Nat.le_trans hd.1 hc.generation_le, fun hv => ?_⟩
  have hle := hd.1
  cases hc with
  | nothing => exact hd.2 hv
  | begin program | reset | failUnreadable identity reason =>
    -- the new generation is another one
    simp only [Job.supersede] at hv
    omega
  | discard run hw hg | drop run hw hg => exact hd.2 hv
  | start run hw hg => exact ⟨(hd.2 hv).1, .inl rfl⟩
  | publish run timeline hw hg hfree =>
    -- a cancelled run is not published
    have ht := (hd.2 hv).1
    rw [← hv, hg, hfree] at ht
    cases ht
  | fail run hw hg => exact ⟨(hd.2 hv).1, .inr ⟨rfl, rfl⟩⟩
  | cancel generation ht hb =>
    refine ⟨isCancelled_iff.mpr (.tail _ (isCancelled_iff.mp (hd.2 hv).1)), ?_⟩
    exact (hd.2 hv).2

theorem CancelledInFlight.through (setup : Setup) {g : Nat} {w : JobSystem} (hd : w.CancelledInFlight g)
    (turns : List Turn) : (w.through setup turns).CancelledInFlight g :=
  through_keeps setup (fun _ _ _ hc => hc.cancelledInFlight) hd turns

/-- A job with a run in flight holds the token of its newest run. -/
theorem Sound.token_of_busy {w : JobSystem} (h : w.Sound) (hb : w.job.isBusy = true) :
    w.job.token = some w.job.generation := by
  have hf := h.fits
  rcases Job.isBusy_iff.mp hb with hp | hp <;> simp only [Job.Fits, hp] at hf <;> exact hf.1

/-- Cancelling condemns the newest generation if it finds its run in flight. -/
theorem Sound.cancelledInFlight_of_cancel {w : JobSystem} (h : w.Sound) (ha : w.job.cancel.answer = true) :
    CancelledInFlight w.job.generation { w with job := w.job.cancel.job } := by
  rw [Job.cancel_answer, Bool.and_eq_true] at ha
  have ht := h.token_of_busy ha.2
  simp only [Job.cancel, ht, ha.2]
  exact ⟨Nat.le_refl _, fun _ => ⟨isCancelled_iff.mpr (.head _), .inl ha.2⟩⟩

/-- While a run is in flight, the newest run is outstanding. -/
theorem Sound.outstanding_of_busy {w : JobSystem} (h : w.Sound) (hb : w.job.isBusy = true) :
    ∃ run ∈ w.outstanding, run.generation = w.job.generation := by
  rcases Job.isBusy_iff.mp hb with hp | hp
  · obtain ⟨run, hr, he⟩ := h.loading hp
    exact ⟨run, List.mem_append_left _ hr, he⟩
  · obtain ⟨run, hr, he⟩ := h.processing hp
    exact ⟨run, List.mem_append_right _ hr, he⟩

/-! ## Publication -/

/-- A run that works publishes its course exactly if it is the newest one, its course came about and
it was not cancelled. -/
theorem mem_finish_iff {setup : Setup} {mint : Nat → MoveId} {seen : Nat → Bool} {w : JobSystem}
    {run : Run} (hw : run ∈ w.working) (s : Snapshot) :
    s ∈ (w.take setup (.finish run mint seen)).2 ↔
      w.job.generation = run.generation ∧ w.job.isCancelled run.generation = false ∧
        ∃ timeline, Timeline.run setup mint seen run.program = .ok timeline ∧
          s = .ofTimeline run.generation run.program timeline := by
  have hm : s ∈ (w.take setup (.finish run mint seen)).2 ↔
      (w.job.finish run (Timeline.run setup mint seen run.program)).answer = .ok s := by
    rw [take, if_pos hw, finish]
    cases (w.job.finish run (Timeline.run setup mint seen run.program)).answer <;>
      simp [Except.toOption, eq_comm]
  rw [hm, Job.finish_answer_eq_ok_iff]
  simp only [Job.outcome_eq_ok_iff]
  constructor
  · rintro ⟨hg, timeline, ⟨hr, hc⟩, hs⟩
    exact ⟨hg, hc, timeline, hr, hs⟩
  · rintro ⟨hg, hc, timeline, hr, hs⟩
    exact ⟨hg, timeline, ⟨hr, hc⟩, hs⟩

/-- The job shows what is published, and comes to show nothing else. -/
theorem Change.snapshot {w v : JobSystem} {out : List Snapshot} (hc : Change w v out) (s : Snapshot) :
    (s ∈ out → v.job.snapshot = some s) ∧
      (v.job.snapshot = some s → w.job.snapshot = some s ∨ s ∈ out) := by
  cases hc with
  | publish run timeline hw hg hfree =>
    refine ⟨fun hs => ?_, fun hs => .inr ?_⟩
    · rw [List.mem_singleton.mp hs]
    · exact List.mem_singleton.mpr (Option.some.inj hs).symm
  | begin program | reset | failUnreadable identity reason =>
    refine ⟨fun hs => ?_, fun hs => ?_⟩ <;> cases hs
  | _ =>
    refine ⟨fun hs => ?_, fun hs => .inl hs⟩
    cases hs

theorem Begun.le {setup : Setup} {turns : List Turn} {run : Run} (hb : Begun setup turns run) :
    run.generation ≤ (after setup turns).job.generation := by
  obtain ⟨before, program, later, rfl, rfl⟩ := hb
  rw [after_append, through_cons]
  exact generation_le_through setup ((after setup before).take setup (.begin program)).1 later

/-- What is published of a job that some turns have led to `w`, whatever turns follow. -/
structure PublicationSafe (setup : Setup) (turns : List Turn) (w : JobSystem) : Prop where
  /-- A run that works publishes its course exactly if it is the newest one, its course came about
  and it was not cancelled. -/
  publishes_iff : ∀ run ∈ w.working, ∀ mint seen s,
    s ∈ (w.take setup (.finish run mint seen)).2 ↔
      w.job.generation = run.generation ∧ w.job.isCancelled run.generation = false ∧
        ∃ timeline, Timeline.run setup mint seen run.program = .ok timeline ∧
          s = .ofTimeline run.generation run.program timeline
  /-- The job shows what a turn publishes, and comes to show nothing else. -/
  shown : ∀ turn s,
    (s ∈ (w.take setup turn).2 → (w.take setup turn).1.job.snapshot = some s) ∧
    ((w.take setup turn).1.job.snapshot = some s →
      w.job.snapshot = some s ∨ s ∈ (w.take setup turn).2)
  /-- After a turn that supersedes, no run that was begun before it is ever published. -/
  superseded : ∀ turn later, turn.supersedes = true → ∀ run, Begun setup turns run →
    run.generation ∉ (w.publications setup (turn :: later)).map Snapshot.generation
  /-- A cancelled run is never published. -/
  cancelled : w.job.cancel.answer = true → ∀ later,
    w.job.generation ∉ (w.publications setup (.cancel :: later)).map Snapshot.generation
  /-- If a cancelled run is not superseded, the job has failed for that reason as soon as the run has
  come to an end. -/
  fails : w.job.cancel.answer = true → ∀ later, let v := w.through setup (.cancel :: later)
    v.job.generation = w.job.generation →
      (∃ run ∈ v.outstanding, run.generation = w.job.generation) ∨
        v.job.phase = .failed ∧ v.job.failure.map (·.cause.kind) = [.cancellation]
  /-- Published generations grow, so each is published at most once. -/
  increasing : ((publications setup {} turns).map Snapshot.generation).Pairwise (· < ·)
  /-- A superseded run is refused when it starts or finishes, and changes nothing. -/
  unchanged : ∀ run, w.job.generation ≠ run.generation →
    w.job.start run =
      { job := w.job, announces := none, answer := .error (.superseded run.generation) } ∧
    ∀ result, w.job.finish run result =
      { job := w.job, announces := none, answer := .error (.superseded run.generation) }

/-- **Publication is safe.** Whatever turns are taken in whatever order, only the newest run is
published, and only if it was not cancelled. -/
theorem publication_safe (setup : Setup) (turns : List Turn) :
    PublicationSafe setup turns (after setup turns) where
  publishes_iff run hr mint seen s := mem_finish_iff hr s
  shown turn s := (take_change setup (after setup turns) turn).snapshot s
  superseded turn later ht run hb := by
    have hlt : run.generation < ((after setup turns).take setup turn).1.job.generation := by
      have := hb.le
      cases turn <;> cases ht <;> exact Nat.lt_succ_of_le this
    have hout : ((after setup turns).take setup turn).2 = [] := by
      cases turn <;> cases ht <;> rfl
    rw [publications_cons, hout]
    exact (unpublishable_of_lt hlt).not_mem setup later
  cancelled ha later := ((after_sound setup turns).cancelledInFlight_of_cancel ha).unpublishable.not_mem setup later
  fails := by
    intro ha later v hg
    have hd : v.CancelledInFlight (after setup turns).job.generation :=
      ((after_sound setup turns).cancelledInFlight_of_cancel ha).through setup later
    have hs : v.Sound := through_sound setup (after_sound setup turns) (.cancel :: later)
    rcases (hd.2 hg).2 with hb | hf
    · exact .inl (hg ▸ hs.outstanding_of_busy hb)
    · exact .inr hf
  increasing := publications_pairwise setup sound_empty turns
  unchanged run hg := ⟨Job.start_of_superseded hg, Job.finish_of_superseded hg⟩

/-- A run whose course is complete is cancelled at the last moment: the job fails. -/
theorem late_cancel_fails :
    let run : Run := ⟨1, ⟨"part.nc", "G0 X1"⟩⟩
    let w := after {} [.begin run.program, .start run]
    let finish : Turn := .finish run (MoveId.mint 1) fun _ => false
    run ∈ w.working ∧ w.job.cancel.answer = true ∧
      1 ∉ (w.publications {} [.cancel, finish]).map Snapshot.generation ∧
      (w.through {} [.cancel, finish]).job.phase = .failed := by
  intro run w finish
  have hr : run ∈ w.working := by decide
  have ha : w.job.cancel.answer = true := by decide
  have hs := publication_safe {} [.begin run.program, .start run]
  refine ⟨hr, ha, hs.cancelled ha [finish], ?_⟩
  rcases hs.fails ha [finish] (by decide) with ⟨other, ho, -⟩ | ⟨hf, -⟩
  · have hn : (w.through {} [.cancel, finish]).outstanding = [] := by decide
    rw [hn] at ho
    cases ho
  · exact hf

end Toolpath.JobSystem
