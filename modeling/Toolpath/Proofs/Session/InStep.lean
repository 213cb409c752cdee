import Toolpath.Proofs.Job.Staleness
import Toolpath.Proofs.Session.Following
import Toolpath.Proofs.Timeline.Chain

/-!
# A cursor that follows stays in step

A `Job` and a `Playback` on it are coupled by events only. A cursor that has followed the job since
it was made is nevertheless in step with it between any two operations, as long as no listener uses the
job.

* `Operation.isDirect`: the operations that are done when they answer, and set nothing off that uses the
  job later.
* `Session.Settled`: what holds of a session between two such operations.
* `Session.Tracks`: a cursor is in step. `Operation.Continues` says what one operation does to settled
  sessions and to cursors in step (`perform_continues`), and `performAll_tracks` what all of them do.
* `Session.followed_inStep`: whatever is asked before and after a cursor was made.
-/

namespace Toolpath

/-! ## Jobs at rest -/

namespace Job

/-- What a cursor is sized to: the last place and the generation. -/
def range (j : Job) : Nat × Nat :=
  match j.snapshot with
  | some snapshot => (snapshot.maxIndex, snapshot.generation)
  | none => (0, j.live)

/-- The job while a run of a program that was just bound is under way. -/
def processing (j : Job) (program : Program) : Job :=
  { (j.begin program).job with phase := .processing }

end Job

namespace JobSystem.Sound

variable {j : Job}

/-- A run that nobody comes between leaves a job without outstanding runs. -/
theorem load (h : Sound { job := j }) (setup : Setup) (mint : Nat → MoveId) (seen : Nat → Bool)
    (program : Program) :
    Sound { job := ((j.processing program).finish (j.begin program).answer
      (Timeline.run setup mint seen program)).job } := by
  have hstart := (h.begin program).start List.mem_cons_self rfl
  rw [List.erase_cons_head] at hstart
  have hfinish := (take_change setup
    { job := j.processing program, working := [(j.begin program).answer] }
    (.finish (j.begin program).answer mint seen)).sound hstart
  rw [take, if_pos List.mem_cons_self, finish, List.erase_cons_head] at hfinish
  exact hfinish

theorem reset (h : Sound { job := j }) : Sound { job := j.reset.job } :=
  Change.sound .reset h

theorem failUnreadable (h : Sound { job := j }) (identity reason : String) :
    Sound { job := (j.failUnreadable identity reason).job } :=
  Change.sound (.failUnreadable identity reason) h

/-- Without outstanding runs nothing is in flight. -/
theorem not_busy (h : Sound { job := j }) : j.isBusy = false := by
  refine Bool.eq_false_iff.mpr fun hb => ?_
  rcases Job.isBusy_iff.mp hb with hp | hp
  · obtain ⟨run, hr, -⟩ := h.loading hp
    cases hr
  · obtain ⟨run, hr, -⟩ := h.processing hp
    cases hr

theorem range_generation (h : Sound { job := j }) : j.range.2 = j.generation := by
  have hc := h.fits.coherent h.live
  unfold Job.range
  split
  · rename_i snapshot hs
    exact (hc.snapshot snapshot hs).1.trans hc.live
  · exact hc.live

end JobSystem.Sound

/-! ## Sessions between two operations -/

namespace Session

/-- Nothing is in flight, no listener uses the job, and what is published is the course of its program. -/
structure Settled (s : Session) : Prop where
  tame : s.Tame
  sound : JobSystem.Sound { job := s.job }
  charted : ∀ snapshot, s.job.snapshot = some snapshot →
    ∃ mint, snapshot.timeline = .ofLines s.setup mint snapshot.program.lines

theorem Settled.of_eq {s t : Session} (hs : s.Settled) (htame : t.Tame) (hsetup : t.setup = s.setup)
    (hjob : t.job = s.job) : t.Settled := by
  refine ⟨htame, hjob ▸ hs.sound, fun snapshot hp => ?_⟩
  rw [hsetup]
  exact hs.charted snapshot (hjob ▸ hp)

/-- A cursor that follows is in step with the job. -/
structure Tracks (s : Session) (id : Nat) : Prop where
  followed : s.Followed id
  within : (s.cursor id).position ≤ (s.cursor id).maximum
  generation_le : (s.cursor id).generation ≤ s.job.generation
  inStep : ∀ snapshot, s.job.snapshot = some snapshot →
    (s.cursor id).generation = snapshot.generation ∧ (s.cursor id).maximum = snapshot.maxIndex

section Tracks

variable {s t : Session} {id : Nat}

/-- A cursor that has just been sized is in step. -/
theorem Tracks.of_atStart (hs : t.Settled) (hf : t.Followed id)
    (hc : (t.cursor id).AtStart t.job.range.1 t.job.generation) : t.Tracks id where
  followed := hf
  within := hc.position ▸ Nat.zero_le _
  generation_le := Nat.le_of_eq hc.generation
  inStep snapshot h := by
    have hg := hs.sound.range_generation
    simp only [Job.range, h] at hg hc
    exact ⟨hc.generation.trans hg.symm, hc.maximum⟩

/-- A cursor stays in step while what is published stays, or is withdrawn. -/
theorem Tracks.of_alike (h : s.Tracks id) (hf : t.Followed id) (hc : (s.cursor id).Alike (t.cursor id))
    (hg : s.job.generation ≤ t.job.generation)
    (hj : ∀ snapshot, t.job.snapshot = some snapshot → s.job.snapshot = some snapshot) :
    t.Tracks id where
  followed := hf
  within := by
    rw [hc.position, hc.maximum]
    exact h.within
  generation_le := by
    rw [hc.generation]
    exact Nat.le_trans h.generation_le hg
  inStep snapshot hs := by
    rw [hc.generation, hc.maximum]
    exact h.inStep snapshot (hj snapshot hs)

/-- A cursor that goes to another place of its range stays in step, and so do the others. -/
theorem Tracks.setCursor {other : Nat} {c : Cursor} (h : s.Tracks other)
    (hm : c.maximum = (s.cursor id).maximum) (hg : c.generation = (s.cursor id).generation)
    (hp : other = id → c.position ≤ c.maximum) : (s.setCursor id c).Tracks other := by
  have hfollowed : (s.setCursor id c).Followed other := by
    rw [Followed, size_setCursor]
    exact h.followed
  by_cases ho : other = id
  · subst ho
    have hc : (s.setCursor other c).cursor other = c := by
      rw [cursor_setCursor, if_pos ⟨rfl, h.followed.1⟩]
    refine ⟨hfollowed, ?_, ?_, ?_⟩ <;> rw [hc]
    · exact hp rfl
    · rw [hg]
      exact h.generation_le
    · rw [hg, hm]
      exact h.inStep
  · have hc : (s.setCursor id c).cursor other = s.cursor other := by
      rw [cursor_setCursor, if_neg fun he => ho he.1]
    refine ⟨hfollowed, ?_, ?_, ?_⟩ <;> rw [hc]
    · exact h.within
    · exact h.generation_le
    · exact h.inStep

end Tracks

end Session

/-! ## One operation -/

namespace Operation

/-- Whether an operation is done when it answers, and sets nothing off that uses the job later. -/
def isDirect : Operation → Bool
  | .dispatch _ _ | .dispatchReload _ | .dispatchFile _ _ | .work _ | .play _ _ => false
  | .arm _ deed => deed.isTame
  | _ => true

/-- Whether an outcome brings a cursor that follows back to the start. -/
def Outcome.rewinds (cursor : Nat) : Outcome → Bool
  | .published => true
  | .rewound owner => owner = cursor
  | .landed _ | .other => false

/-- What an operation does to a settled session and to the cursors in step. -/
structure Continues (outcome : Outcome) (s t : Session) : Prop where
  settled : t.Settled
  tracks : ∀ id, s.Tracks id → t.Tracks id
  rewound : ∀ id, s.Tracks id → outcome.rewinds id = true → (t.cursor id).position = 0
  stays : ∀ id, s.Tracks id → outcome ≠ .landed id →
    (t.cursor id).position = (s.cursor id).position ∨ (t.cursor id).position = 0

section Continues

variable {s t : Session}

/-- The cursors stand where they stood; what is published stays, or is withdrawn. -/
theorem Continues.of_alike (hs : t.Settled) (hf : ∀ id, s.Followed id → t.Followed id)
    (hg : s.job.generation ≤ t.job.generation)
    (hj : ∀ snapshot, t.job.snapshot = some snapshot → s.job.snapshot = some snapshot)
    (hc : ∀ id, s.Tracks id → (s.cursor id).Alike (t.cursor id)) : Continues .other s t where
  settled := hs
  tracks id h := h.of_alike (hf id h.followed) (hc id h) hg hj
  rewound id h ho := by cases ho
  stays id h _ := .inl (hc id h).position

/-- Publishing an event between two operations. -/
theorem Continues.of_leaves (hs : s.Settled) (h : s.Leaves Cursor.Alike t) : Continues .other s t := by
  have hsettled := hs.of_eq (h.tame hs.tame) h.setup h.job
  refine .of_alike hsettled (fun id => h.followed) (Nat.le_of_eq (congrArg Job.generation h.job.symm))
    (fun snapshot hp => h.job ▸ hp) fun id _ => h.cursor id

/-- The job withdraws its snapshot and publishes the reset. -/
theorem Continues.of_withdrawn {j : Job} (hs : s.Settled) (hj : JobSystem.Sound { job := j })
    (hn : j.snapshot = none) (hg : s.job.generation ≤ j.generation)
    (h : Session.Leaves Cursor.Alike { s with job := j } t) : Continues .other s t := by
  have hnone : ∀ snapshot, t.job.snapshot ≠ some snapshot := by
    intro snapshot hp
    rw [h.job, hn] at hp
    cases hp
  have hsettled : t.Settled :=
    ⟨h.tame hs.tame, h.job ▸ hj, fun snapshot hp => absurd hp (hnone snapshot)⟩
  refine .of_alike hsettled (fun id => h.followed) ?_ (fun snapshot hp => absurd hp (hnone snapshot))
    fun id _ => h.cursor id
  rw [h.job]
  exact hg

/-- Something that is of no consequence comes first. -/
theorem Continues.after {outcome : Outcome} {u : Session} (h : Continues .other s t)
    (h' : Continues outcome t u) : Continues outcome s u where
  settled := h'.settled
  tracks id hs := h'.tracks id (h.tracks id hs)
  rewound id hs := h'.rewound id (h.tracks id hs)
  stays id hs ho := by
    rcases h'.stays id (h.tracks id hs) ho with h₂ | h₂
    · rw [h₂]
      exact h.stays id hs (by nofun)
    · exact .inr h₂

end Continues

section Runs

open Step

variable {s : Session} {k : Job}

/-- A course is published, and every cursor that follows takes its range. -/
theorem Continues.of_published {j : Job} {t u : Session} {snapshot : Snapshot} (hs : s.Settled)
    (ht : Session.Leaves Cursor.Alike { s with job := j } t) (hsound : JobSystem.Sound { job := k })
    (hk : k.snapshot = some snapshot) (hle : s.job.generation ≤ snapshot.generation)
    (hm : ∃ mint, snapshot.timeline = .ofLines s.setup mint snapshot.program.lines)
    (hu : Session.Leaves (Cursor.Resized snapshot.maxIndex snapshot.generation) { t with job := k } u)
    (hf : ∀ id, t.Followed id ∧ (t.cursor id).generation ≤ snapshot.generation →
      (u.cursor id).AtStart snapshot.maxIndex snapshot.generation) : Continues .published s u := by
  have hpublished : u.job.snapshot = some snapshot := by
    rw [hu.job]
    exact hk
  have hsettled : u.Settled := by
    refine ⟨hu.tame (ht.tame hs.tame), hu.job ▸ hsound, fun published hp => ?_⟩
    rw [hpublished] at hp
    cases hp
    rw [hu.setup, ht.setup]
    exact hm
  have hstart : ∀ id, s.Tracks id → (u.cursor id).AtStart snapshot.maxIndex snapshot.generation := by
    intro id h
    refine hf id ⟨ht.followed h.followed, ?_⟩
    rw [(ht.cursor id).generation]
    exact Nat.le_trans h.generation_le hle
  refine ⟨hsettled, fun id h => ?_, fun id h _ => (hstart id h).position,
    fun id h _ => .inr (hstart id h).position⟩
  refine .of_atStart hsettled (hu.followed (ht.followed h.followed)) ?_
  have hgeneration := hsettled.sound.range_generation
  simp only [Job.range, hpublished] at hgeneration ⊢
  rw [← hgeneration]
  exact hstart id h

/-- The end of a run that was not superseded. -/
theorem finish_continues {j : Job} {t : Session} {run : Run} {mint : Nat → MoveId} {seen : Nat → Bool}
    (hs : s.Settled) (ht : Session.Leaves Cursor.Alike { s with job := j } t)
    (hg : j.generation = run.generation) (hn : j.snapshot = none) (hle : s.job.generation ≤ j.generation)
    (hsound : JobSystem.Sound { job := (j.finish run (Timeline.run t.setup mint seen run.program)).job }) :
    Leads t (inSection tell (·.finish run (Timeline.run t.setup mint seen run.program))) fun r u =>
      Continues (.ofRun r) s u := by
  have htame : t.Tame := ht.tame hs.tame
  have hjob : t.job = j := ht.job
  rw [← hjob] at hsound
  cases ho : j.outcome run (Timeline.run t.setup mint seen run.program) with
  | error cause =>
    have hfinish : t.job.finish run (Timeline.run t.setup mint seen run.program) =
        { job := { j with phase := .failed, token := none, failure := [.ofJob cause] }
          announces := some (.job (.processingFailed run.generation run.program.identity cause.message))
          answer := .error cause } := by
      rw [hjob]
      simp only [Job.finish, if_pos hg, ho]
    refine (inSection_respectsTame htame (congrArg Section.announces hfinish) rfl).mono fun r u h => ?_
    obtain ⟨hr, hu⟩ := h
    rw [hfinish] at hr hu hsound
    subst hr
    exact .of_withdrawn hs hsound hn hle (ht.withJob hu)
  | ok timeline =>
    have hfinish : t.job.finish run (Timeline.run t.setup mint seen run.program) =
        { job := { j with
            phase := .ready
            token := none
            snapshot := some (.ofTimeline run.generation run.program timeline)
            live := run.generation }
          announces := some (.job (.processingFinished run.generation run.program.identity
            timeline.moves.length timeline.diagnostics.length))
          answer := .ok (.ofTimeline run.generation run.program timeline) } := by
      rw [hjob]
      simp only [Job.finish, if_pos hg, ho]
      rfl
    have hcourse : timeline = .ofLines s.setup mint run.program.lines := by
      have := Timeline.run_ok (Job.outcome_eq_ok_iff.mp ho).1
      rwa [ht.setup] at this
    refine (leads_inSection (congrArg Section.announces hfinish)).mpr ?_
    rw [hfinish] at hsound ⊢
    have htame' : Session.Tame { t with job := { j with
        phase := .ready
        token := none
        snapshot := some (.ofTimeline run.generation run.program timeline)
        live := run.generation } } := htame
    refine (tell_finish htame' run.program.identity timeline.moves.length
      timeline.diagnostics.length).mono fun _ u h => ?_
    obtain ⟨hu, hf⟩ := h
    exact .of_published hs ht hsound rfl (hg ▸ hle) ⟨mint, hcourse⟩ hu hf

/-- **A load.** Its run is published, and every cursor in step takes the new range. -/
theorem load_continues (hs : s.Settled) (program : Program) :
    Leads s (Step.load tell program) fun r t => Continues (.ofRun r) s t := by
  refine leads_bind.mpr ((inSection_respectsTame hs.tame rfl rfl).mono fun run t₁ ⟨hrun, h₁⟩ => ?_)
  subst hrun
  have hstart : t₁.job.start (s.job.begin program).answer =
      { job := s.job.processing program
        announces := some (.job (.processingStarted (s.job.generation + 1) program.identity))
        answer := .ok () } := by
    rw [h₁.job]
    exact Job.start_of_current rfl
  refine leads_bind.mpr ((inSection_respectsTame (h₁.tame hs.tame) (congrArg Section.announces hstart) rfl).mono
    fun started t₂ ⟨hanswer, h₂⟩ => ?_)
  rw [hstart] at hanswer h₂
  subst hanswer
  simp only [leads_bind, leads_get]
  have ht : Session.Leaves Cursor.Alike { s with job := s.job.processing program } t₂ :=
    h₁.withJob h₂
  exact finish_continues hs ht rfl rfl (Nat.le_succ _) (hs.sound.load _ _ _ program)

theorem reload_continues (hs : s.Settled) :
    Leads s (Step.reload tell) fun r t => Continues (.ofRun r) s t := by
  simp only [Step.reload, leads_bind, leads_get]
  cases s.job.program with
  | none => exact leads_pure.mpr (.of_leaves hs (.refl Cursor.Alike.refl s))
  | some program => exact load_continues hs program

theorem loadFile_continues (hs : s.Settled) (path : String) (content : Except FileError String) :
    Leads s (Step.loadFile path content) fun r t => Continues (.ofRun r) s t := by
  cases content with
  | ok text => exact load_continues hs { identity := path, text }
  | error cause =>
    simp only [Step.loadFile, opened, leads_bind, leads_pure]
    refine (inSection_respectsTame hs.tame rfl rfl).mono fun _ t ⟨_, ht⟩ => ?_
    exact .of_withdrawn hs (hs.sound.failUnreadable path cause.message) rfl (Nat.le_succ _) ht

theorem reset_continues (hs : s.Settled) : Leads s Step.reset fun _ t => Continues .other s t := by
  refine (inSection_respectsTame hs.tame rfl rfl).mono fun _ t ⟨_, ht⟩ => ?_
  exact .of_withdrawn hs hs.sound.reset rfl (Nat.le_succ _) ht

/-- Between two operations there is nothing to cancel. -/
theorem cancel_continues (hs : s.Settled) : Leads s Step.cancel fun _ t => Continues .other s t := by
  have hcancel : s.job.cancel = { job := s.job, announces := none, answer := false } := by
    have hb := hs.sound.not_busy
    unfold Job.cancel
    split
    · rename_i h
      cases hb.symm.trans h
    · rfl
  refine (leads_inSection_of_silent (congrArg Section.announces hcancel)).mpr ?_
  rw [hcancel]
  exact .of_leaves hs (.refl Cursor.Alike.refl s)

end Runs

section Cursors

open Step

variable {s t : Session} {id : Nat}

/-- Looking a move up and selecting it. -/
theorem selectWith_respectsTame (find : Snapshot → Nat → Except IndexError Move) :
    Takes Session.Tame (Session.Leaves Cursor.Alike) (selectWith tell find) := by
  intro s hs
  simp only [selectWith, leads_bind, leads_get]
  cases s.job.snapshot with
  | none => exact leads_pure.mpr (.refl Cursor.Alike.refl s)
  | some snapshot =>
    simp only
    cases find snapshot s.job.live with
    | error cause => exact leads_pure.mpr (.refl Cursor.Alike.refl s)
    | ok m =>
      simp only [leads_bind, leads_pure]
      exact tell_respectsTame rfl s hs

/-- A cursor is put on a place in its range. -/
theorem Continues.of_land (hs : s.Settled) (h : s.Leaves Cursor.Alike t) {index : Nat}
    (hi : s.Tracks id → index ≤ (s.cursor id).maximum) :
    Continues (.landed id) s (t.setCursor id ((t.cursor id).land index)) := by
  have ht := Continues.of_leaves hs h
  constructor
  · exact ⟨ht.settled.tame, ht.settled.sound, ht.settled.charted⟩
  · intro other htracks
    refine (ht.tracks other htracks).setCursor rfl rfl fun ho => ?_
    show index ≤ (t.cursor id).maximum
    rw [(h.cursor id).maximum]
    exact hi (ho ▸ htracks)
  · intro other _ ho
    cases ho
  · intro other _ ho
    have hne : ¬ (other = id ∧ id < t.cursors.size) := by
      rintro ⟨rfl, -⟩
      exact ho rfl
    rw [Session.cursor_setCursor, if_neg hne]
    exact .inl (h.cursor other).position

theorem landOn_continues (hs : s.Settled) {index : Nat}
    (hi : s.Tracks id → index ≤ (s.cursor id).maximum) :
    Leads s (landOn tell id index) fun r t => Continues (.ofLanding id r) s t := by
  refine leads_bind.mpr ((selectWith_respectsTame _ s hs.tame).mono fun r t h => ?_)
  cases r with
  | error cause => exact leads_pure.mpr (.of_leaves hs h)
  | ok m => exact leads_bind.mpr (leads_modify.mpr (leads_pure.mpr (.of_land hs h hi)))

theorem landOn?_continues (hs : s.Settled) {place : Option Nat}
    (hi : ∀ index, place = some index → s.Tracks id → index ≤ (s.cursor id).maximum) :
    Leads s (landOn? tell id place) fun r t => Continues (.ofStep id r) s t := by
  cases place with
  | none => exact leads_pure.mpr (.of_leaves hs (.refl Cursor.Alike.refl s))
  | some index =>
    refine leads_bind.mpr ((landOn_continues hs (hi index rfl)).mono fun r t h => leads_pure.mpr ?_)
    cases r <;> exact h

theorem seek_continues (hs : s.Settled) (index : Nat) :
    Leads s (Step.seek tell id index) fun r t => Continues (.ofLanding id r) s t := by
  simp only [Step.seek, leads_bind, leads_get]
  split
  · exact leads_pure.mpr (.of_leaves hs (.refl Cursor.Alike.refl s))
  · rename_i hi
    exact landOn_continues hs fun _ => Nat.not_lt.mp hi

/-- A cursor is sized to what is published. -/
theorem refresh_leads (hs : s.Settled) :
    Leads s (Step.refresh tell id) fun _ t =>
      s.Leaves (Cursor.Resized s.job.range.1 s.job.generation) t ∧
        (id < s.cursors.size → (s.cursor id).generation ≤ s.job.generation →
          (t.cursor id).AtStart s.job.range.1 s.job.generation) ∧
        ∀ other, other ≠ id → (s.cursor other).Alike (t.cursor other) := by
  have hrefresh : Step.refresh tell id = do
      let s ← get
      setRange tell id s.job.range.1 s.job.range.2
      return s.job.range.1 := rfl
  simp only [hrefresh, leads_bind, leads_get, leads_pure, hs.sound.range_generation]
  exact setRange_leads (tell_respectsTame rfl) hs.tame

/-- Cursors that were sized anew; the others stand where they stood. -/
theorem Continues.of_refresh (hs : s.Settled)
    (h : s.Leaves (Cursor.Resized s.job.range.1 s.job.generation) t)
    (hsized : id < s.cursors.size → (s.cursor id).generation ≤ s.job.generation →
      (t.cursor id).AtStart s.job.range.1 s.job.generation)
    (hothers : ∀ other, other ≠ id → (s.cursor other).Alike (t.cursor other)) :
    Continues (.rewound id) s t := by
  have hsettled := hs.of_eq (h.tame hs.tame) h.setup h.job
  have hstart : s.Tracks id → (t.cursor id).AtStart s.job.range.1 s.job.generation :=
    fun htracks => hsized htracks.followed.1 htracks.generation_le
  constructor
  · exact hsettled
  · intro other htracks
    by_cases ho : other = id
    · subst ho
      refine .of_atStart hsettled (h.followed htracks.followed) ?_
      rw [h.job]
      exact hstart htracks
    · exact htracks.of_alike (h.followed htracks.followed) (hothers other ho)
        (Nat.le_of_eq (congrArg Job.generation h.job.symm)) fun snapshot hp => h.job ▸ hp
  · intro other htracks ho
    obtain rfl : id = other := of_decide_eq_true ho
    exact (hstart htracks).position
  · intro other htracks _
    by_cases ho : other = id
    · subst ho
      exact .inr (hstart htracks).position
    · exact .inl (hothers other ho).position

/-- A listener or a receiver is added; no event is published. -/
theorem Continues.of_audience (hs : s.Settled) (hsetup : t.setup = s.setup) (hjob : t.job = s.job)
    (htame : t.Tame) (hc : ∀ id, id < s.cursors.size → t.cursor id = s.cursor id)
    (hsize : s.cursors.size ≤ t.cursors.size)
    (hsub : ∀ x ∈ s.bus.subscriptions, x ∈ t.bus.subscriptions) : Continues .other s t := by
  refine .of_alike (hs.of_eq htame hsetup hjob) (fun id ⟨hid, x, hx, hl⟩ => ⟨by omega, x, hsub x hx, hl⟩)
    (Nat.le_of_eq (congrArg Job.generation hjob.symm)) (fun snapshot hp => hjob ▸ hp) fun id h => ?_
  rw [hc id h.followed.1]
  exact .refl _

theorem listen_continues (hs : s.Settled) (filter : Filter) (listener : Listener) :
    Leads s (listen filter listener) fun _ t => Continues .other s t := by
  simp only [Step.listen, leads_bind, leads_get, leads_modify, leads_pure]
  exact .of_audience hs rfl rfl hs.tame (fun _ _ => rfl) (Nat.le_refl _)
    fun x hx => List.mem_append_left _ hx

theorem openJournal_continues (hs : s.Settled) (filter : Filter) :
    Leads s (openJournal filter) fun _ t => Continues .other s t := by
  simp only [openJournal, leads_bind, leads_get, leads_modify, leads_pure]
  have hbook : Continues .other s { s with journals := s.journals.push #[] } :=
    .of_audience hs rfl rfl hs.tame (fun _ _ => rfl) (Nat.le_refl _) fun _ h => h
  exact (listen_continues hbook.settled filter _).mono fun _ t h => hbook.after h

theorem arm_continues (hs : s.Settled) (trigger : Trigger) {deed : Deed} (hd : deed.isTame = true) :
    Leads s (Step.arm trigger deed) fun _ t => Continues .other s t := by
  simp only [Step.arm, leads_bind, leads_get, leads_modify]
  have harm : Continues .other s { s with
      armed := s.armed ++ [{ id := s.nextReaction, trigger, deed }]
      nextReaction := s.nextReaction + 1 } := by
    refine .of_audience hs rfl rfl (fun r hr => ?_) (fun _ _ => rfl) (Nat.le_refl _) fun _ h => h
    rcases List.mem_append.mp hr with hr | hr
    · exact hs.tame r hr
    · obtain rfl := List.mem_singleton.mp hr
      exact hd
  exact (listen_continues harm.settled .all _).mono fun _ t h => harm.after h

/-- A new cursor is sized to what is published. -/
theorem newCursor_continues (hs : s.Settled) :
    Leads s Step.newCursor fun id t => Continues (.rewound id) s t ∧ id < t.cursors.size ∧
      (t.cursor id).AtStart t.job.range.1 t.job.generation := by
  simp only [Step.newCursor, leads_bind, leads_get, leads_modify, leads_discard, leads_pure]
  have hpush : Continues .other s { s with cursors := s.cursors.push {} } := by
    refine .of_audience hs rfl rfl hs.tame (fun id hid => ?_) ?_ fun _ h => h
    · simp [Session.cursor, Array.getElem?_push, Nat.ne_of_lt hid]
    · simp
  refine (refresh_leads hpush.settled).mono fun _ t hrefresh => ?_
  obtain ⟨h, hsized, hothers⟩ := hrefresh
  have hnew : s.cursors.size < (s.cursors.push {}).size := by simp
  have hzero : (Session.cursor { s with cursors := s.cursors.push {} } s.cursors.size).generation = 0 := by
    simp [Session.cursor]
  refine ⟨hpush.after (.of_refresh hpush.settled h hsized hothers), h.size ▸ hnew, ?_⟩
  rw [h.job]
  exact hsized hnew (Nat.le_trans (Nat.le_of_eq hzero) (Nat.zero_le _))

end Cursors

/-- **One operation.** -/
theorem perform_continues {s : Session} (hs : s.Settled) {operation : Operation}
    (hd : operation.isDirect = true) :
    Step.Leads s operation.perform fun outcome t => Continues outcome s t := by
  cases operation with
  | dispatch | dispatchReload | dispatchFile | work | play => cases hd
  | load program =>
    simp only [perform, Step.leads_bind, Step.leads_pure]
    exact load_continues hs program
  | reload =>
    simp only [perform, Step.leads_bind, Step.leads_pure]
    exact reload_continues hs
  | loadFile path content =>
    simp only [perform, Step.leads_bind, Step.leads_pure]
    exact loadFile_continues hs path content
  | cancel =>
    simp only [perform, Step.leads_bind, Step.leads_discard, Step.leads_pure]
    exact cancel_continues hs
  | reset =>
    simp only [perform, Step.leads_bind, Step.leads_pure]
    exact reset_continues hs
  | select index =>
    simp only [perform, Step.leads_bind, Step.leads_discard, Step.leads_pure]
    exact (selectWith_respectsTame _ s hs.tame).mono fun _ t h => .of_leaves hs h
  | selectMove id =>
    simp only [perform, Step.leads_bind, Step.leads_discard, Step.leads_pure]
    exact (selectWith_respectsTame _ s hs.tame).mono fun _ t h => .of_leaves hs h
  | newCursor =>
    simp only [perform, Step.leads_bind, Step.leads_pure]
    exact (newCursor_continues hs).mono fun _ t h => h.1
  | follow cursor =>
    simp only [perform, Step.leads_bind, Step.leads_discard, Step.leads_pure]
    exact listen_continues hs (.categories [.job]) (.follow cursor)
  | refresh cursor =>
    simp only [perform, Step.leads_bind, Step.leads_discard, Step.leads_pure]
    exact (refresh_leads hs).mono fun _ t ⟨h, hsized, hothers⟩ => .of_refresh hs h hsized hothers
  | stepForward cursor =>
    simp only [perform, Step.leads_bind, Step.leads_pure, Step.stepForward, Step.leads_get]
    refine landOn?_continues hs fun index hi _ => ?_
    unfold Cursor.next? at hi
    split at hi <;> cases hi
    assumption
  | stepBack cursor =>
    simp only [perform, Step.leads_bind, Step.leads_pure, Step.stepBack, Step.leads_get]
    refine landOn?_continues hs fun index hi htracks => ?_
    unfold Cursor.previous? at hi
    split at hi <;> cases hi
    exact Nat.le_trans (Nat.sub_le _ 1) htracks.within
  | seek cursor index =>
    simp only [perform, Step.leads_bind, Step.leads_pure]
    exact seek_continues hs index
  | toggle cursor =>
    simp only [perform, Step.leads_bind, Step.leads_discard, Step.leads_pure]
    exact (Step.toggle_respectsTame (fun _ => Step.tell_respectsTame rfl) cursor s hs.tame).mono fun _ t h =>
      .of_leaves hs h
  | pause cursor =>
    simp only [perform, Step.leads_bind, Step.leads_pure]
    exact (Step.pause_respectsTame (fun _ => Step.tell_respectsTame rfl) cursor s hs.tame).mono fun _ t h =>
      .of_leaves hs h
  | journal filter =>
    simp only [perform, Step.leads_bind, Step.leads_discard, Step.leads_pure]
    exact openJournal_continues hs filter
  | arm trigger deed =>
    simp only [perform, Step.leads_bind, Step.leads_discard, Step.leads_pure]
    exact arm_continues hs trigger hd

/-! ## All operations -/

/-- Since a cursor was last put on a move, it has been brought back to the start. -/
def Rests (id : Nat) (outcomes : List Outcome) : Prop :=
  ∀ earlier later, outcomes = earlier ++ .landed id :: later → ∃ o ∈ later, o.rewinds id = true

/-- **All operations.** The induction carries where the cursor stood before: it stands at the start after
the operations if it stood there before them, or was brought back there, and was not put on a move
since. -/
theorem performAll_tracks {s : Session} (hs : s.Settled) {operations : List Operation}
    (hd : ∀ operation ∈ operations, operation.isDirect = true) :
    Step.Leads s (performAll operations) fun outcomes t => t.Settled ∧ ∀ id, s.Tracks id →
      t.Tracks id ∧
        ((s.cursor id).position = 0 ∨ (∃ o ∈ outcomes, o.rewinds id = true) → Rests id outcomes →
          (t.cursor id).position = 0) := by
  induction operations generalizing s with
  | nil =>
    refine Step.leads_pure.mpr ⟨hs, fun id h => ⟨h, ?_⟩⟩
    rintro (hp | ⟨o, ho, -⟩) -
    · exact hp
    · cases ho
  | cons operation rest ih =>
    simp only [performAll, Step.leads_bind, Step.leads_pure]
    refine (perform_continues hs (hd operation List.mem_cons_self)).mono fun outcome t h => ?_
    refine (ih h.settled fun x hx => hd x (List.mem_cons_of_mem _ hx)).mono fun outcomes u ⟨hu, hall⟩ => ?_
    refine ⟨hu, fun id htracks => ?_⟩
    obtain ⟨hthen, hpos⟩ := hall id (h.tracks id htracks)
    refine ⟨hthen, fun hstart hrests => ?_⟩
    have hlater : Rests id outcomes := fun earlier later he =>
      hrests (outcome :: earlier) later (congrArg (outcome :: ·) he)
    refine hpos ?_ hlater
    by_cases hland : outcome = .landed id
    · subst hland
      exact .inr (hrests [] outcomes rfl)
    · by_cases hrewinds : outcome.rewinds id = true
      · exact .inl (h.rewound id htracks hrewinds)
      · rcases hstart with hstart | ⟨o, ho, hor⟩
        · rcases h.stays id htracks hland with hp | hp
          · exact .inl (hp.trans hstart)
          · exact .inl hp
        · rcases List.mem_cons.mp ho with rfl | ho
          · exact absurd hor hrewinds
          · exact .inr ⟨o, ho, hor⟩

end Operation

/-! ## A cursor that has followed since it was made -/

namespace Session

/-- A cursor is in step with the job, after operations with some outcomes. -/
structure InStep (s : Session) (id : Nat) (outcomes : List Operation.Outcome) : Prop where
  within : (s.cursor id).position ≤ (s.cursor id).maximum
  generation_le : (s.cursor id).generation ≤ s.job.live
  /-- While a course is published, the cursor has its range. It stands at the start unless it was put
  elsewhere, and there is a move under it unless the course has none. -/
  ready : s.job.phase = .ready → ∃ snapshot, s.job.snapshot = some snapshot ∧
    (s.cursor id).generation = snapshot.generation ∧
    (s.cursor id).maximum = snapshot.maxIndex ∧
    (Operation.Rests id outcomes → (s.cursor id).position = 0) ∧
    (snapshot.moves ≠ [] → ∃ m, snapshot.moves[(s.cursor id).position]? = some m ∧
      s.current id = .ok m ∧ m.index = (s.cursor id).position ∧ s.highlight id = some m.line)

/-- The move under a cursor in step. -/
theorem Tracks.current {s : Session} {id : Nat} {snapshot : Snapshot} (hs : s.Settled)
    (h : s.Tracks id) (hp : s.job.snapshot = some snapshot) (hne : snapshot.moves ≠ []) :
    ∃ m, snapshot.moves[(s.cursor id).position]? = some m ∧
      s.current id = .ok m ∧ m.index = (s.cursor id).position ∧ s.highlight id = some m.line := by
  have hcoherent := hs.sound.fits.coherent hs.sound.live
  have hready : s.job.phase = .ready := hcoherent.snapshot_iff.mp (by rw [hp]; rfl)
  obtain ⟨program, timeline, hmade⟩ : ∃ program timeline,
      snapshot = .ofTimeline s.job.generation program timeline := by
    have hfits := hs.sound.fits
    simp only [Job.Fits, hready] at hfits
    obtain ⟨-, -, program, timeline, -, hmade⟩ := hfits
    exact ⟨program, timeline, Option.some.inj (hp.symm.trans hmade)⟩
  have hlive : s.job.live = snapshot.index.generation := ((hcoherent.snapshot snapshot hp).2.1).symm
  have htable : snapshot.index.moves = snapshot.moves.toArray := by rw [hmade]; rfl
  obtain ⟨mint, hcourse⟩ := hs.charted snapshot hp
  -- the place under the cursor is one of the course
  have hlt : (s.cursor id).position < snapshot.moves.length := by
    have hwithin := h.within
    have hlength := List.length_pos_iff.mpr hne
    rw [(h.inStep snapshot hp).2] at hwithin
    simp only [Snapshot.maxIndex, Snapshot.moveCount] at hwithin
    omega
  have hmove : snapshot.index.moveAt s.job.live (s.cursor id).position =
      .ok snapshot.moves[(s.cursor id).position] := by
    simp only [SelectionIndex.moveAt, SelectionIndex.check_of_eq hlive, htable,
      List.getElem?_toArray, List.getElem?_eq_getElem hlt]
    rfl
  have hindex : ∀ i (hi : i < snapshot.moves.length), snapshot.moves[i].index = i := by
    rw [Snapshot.moves, hcourse]
    exact Timeline.ofLines_index s.setup mint snapshot.program.lines
  have hline : ∀ m ∈ snapshot.moves, m.line < snapshot.program.lineCount := by
    rw [Snapshot.moves, hcourse]
    exact Timeline.ofLines_line_lt s.setup mint snapshot.program.lines
  refine ⟨snapshot.moves[(s.cursor id).position], List.getElem?_eq_getElem hlt, ?_, hindex _ hlt, ?_⟩
  · simp only [Session.current, hp]
    exact hmove
  · have hlineOf : snapshot.index.lineOf s.job.live (s.cursor id).position =
        .ok snapshot.moves[(s.cursor id).position].line := by
      simp only [SelectionIndex.lineOf, hmove]
      rfl
    simp only [highlight, hp, hlineOf, Except.toOption, Option.bind_eq_bind, Option.bind_some]
    exact if_pos (hline _ (List.getElem_mem hlt))

theorem Tracks.toInStep {s : Session} {id : Nat} {outcomes : List Operation.Outcome} (hs : s.Settled)
    (h : s.Tracks id) (hp : Operation.Rests id outcomes → (s.cursor id).position = 0) :
    s.InStep id outcomes where
  within := h.within
  generation_le := by
    rw [hs.sound.live]
    exact h.generation_le
  ready hready := by
    obtain ⟨snapshot, hs'⟩ := Option.isSome_iff_exists.mp
      ((hs.sound.fits.coherent hs.sound.live).snapshot_iff.mpr hready)
    obtain ⟨hg, hm⟩ := h.inStep snapshot hs'
    exact ⟨snapshot, hs', hg, hm, hp, h.current hs hs'⟩

theorem settled_of_new {s : Session} (hjob : s.job = {}) (htame : s.Tame) : s.Settled where
  tame := htame
  sound := hjob ▸ JobSystem.sound_empty
  charted snapshot hp := by
    rw [hjob] at hp
    cases hp

open Step in
/-- **A cursor that follows stays in step.** Whatever was asked of a new job before the cursor was made
and followed it, and whatever is asked after that. -/
theorem followed_inStep (s : Session) (hjob : s.job = {}) (htame : s.Tame)
    (before later : List Operation)
    (hd : ∀ operation ∈ before ++ later, operation.isDirect = true) :
    Leads s (do
        discard (Operation.performAll before)
        let id ← newCursor
        discard (follow id)
        return (id, ← Operation.performAll later))
      fun (id, outcomes) t => t.InStep id outcomes := by
  have hbefore := Operation.performAll_tracks (settled_of_new hjob htame) fun x hx =>
    hd x (List.mem_append_left _ hx)
  refine leads_bind.mpr (leads_discard.mpr (hbefore.mono fun _ t₁ ⟨h₁, _⟩ => ?_))
  refine leads_bind.mpr ((Operation.newCursor_continues h₁).mono fun id t₂ ⟨h₂, hid, hstart⟩ => ?_)
  refine leads_bind.mpr (leads_discard.mpr ?_)
  simp only [follow, Step.listen, leads_bind, leads_get, leads_modify, leads_pure]
  have hsettled : Settled { t₂ with bus := (t₂.bus.subscribe (.categories [.job]) (.follow id)).1 } :=
    h₂.settled.of_eq h₂.settled.tame rfl rfl
  have htracks : Tracks { t₂ with bus := (t₂.bus.subscribe (.categories [.job]) (.follow id)).1 } id := by
    refine .of_atStart hsettled ⟨hid, _, List.mem_append_right _ List.mem_cons_self, rfl, rfl⟩ ?_
    exact hstart
  refine (Operation.performAll_tracks hsettled fun x hx => hd x (List.mem_append_right _ hx)).mono
    fun outcomes t ⟨ht, hall⟩ => ?_
  obtain ⟨hthen, hpos⟩ := hall id htracks
  exact hthen.toInStep ht (hpos (.inl hstart.position))

/-- A cursor is made on a loaded job and steps on, and another program is loaded: it takes the new range. A
listener that pauses it does not matter. -/
theorem inStep_after_second_load :
    let first : Program := ⟨"a.nc", "G0 X1\nG0 X2"⟩
    let second : Program := ⟨"b.nc", "G0 X1\nG0 X2\nG0 X3"⟩
    let later : List Operation :=
      [.arm ⟨.processingFinished, none⟩ (.pause 0), .toggle 0, .stepForward 0, .load second]
    Step.Leads { setup := {} } (do
        discard (Operation.performAll [.load first])
        let id ← Step.newCursor
        discard (Step.follow id)
        return (id, ← Operation.performAll later))
      fun r t => t.InStep r.1 r.2 ∧ t.job.phase = .ready ∧
        r.2 = [.other, .other, .landed 0, .published] ∧ t.cursor r.1 = ⟨0, 2, false, 2⟩ := by
  intro first second later
  refine (followed_inStep { setup := {} } rfl (by nofun) [.load first] later (by decide)).and ?_
  decide +kernel

end Session

end Toolpath
