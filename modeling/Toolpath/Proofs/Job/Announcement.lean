import Toolpath.Proofs.Job.Publication

/-!
# The events of each run

A section of a job holds the lifecycle lock, but its event is published afterwards, when other parties
may have taken any number of turns. Only the run itself waits: it goes on to its next section when its
last announcement is out.

* `Broadcast`: a system with the announcements that are under way; `Broadcast.take`: a turn, or one
  announcement that is raised. `Broadcast.log` keeps both in order.
* `JobSystem.Announces`: all that a turn can announce (`take_announces`).
* `Script`: what is announced of a run from its beginning to its end.
* `Broadcast.Paced`: the invariant. It ties what was announced of a run, raised or not, to the list of
  outstanding runs that the run is on.
* `Broadcast.event_protocol`: what is raised of each generation, and when.
-/

namespace Toolpath

/-- The run that an event of a job is about. -/
def Event.generation? : Event → Option Nat
  | .job (.loaded g _ _) | .job (.processingStarted g _) | .job (.processingFinished g _ _ _)
  | .job (.processingFailed g _ _) => some g
  | .job .reset | .selection _ | .playback _ => none

namespace Run

def loaded (run : Run) : Event :=
  .job (.loaded run.generation run.program.identity run.program.lineCount)

def started (run : Run) : Event := .job (.processingStarted run.generation run.program.identity)

/-- The last announcement of a run that was not superseded. -/
inductive Ends (run : Run) : Event → Prop
  | finished (moves problems : Nat) :
      Ends run (.job (.processingFinished run.generation run.program.identity moves problems))
  | failed (reason : String) :
      Ends run (.job (.processingFailed run.generation run.program.identity reason))

theorem Ends.generation {run : Run} {e : Event} (h : run.Ends e) :
    e.generation? = some run.generation := by
  cases h <;> rfl

end Run

/-- All that is announced of a generation: a run is loaded, started and brought to one end, and a program
that could not be read fails. -/
inductive Script (g : Nat) : List Event → Prop
  | run (run : Run) (hg : run.generation = g) {last : Event} (he : run.Ends last) :
      Script g [run.loaded, run.started, last]
  | unreadable (identity reason : String) : Script g [.job (.processingFailed g identity reason)]

/-- The state of a job that an event reports. -/
def Event.Describes (j : Job) : Event → Prop
  | .job (.processingFinished g identity moves problems) =>
    j.phase = .ready ∧ ∃ s, j.snapshot = some s ∧ s.generation = g ∧ s.identity = identity ∧
      s.moveCount = moves ∧ s.diagnostics.length = problems
  | .job (.processingFailed g _ _) => j.phase = .failed ∧ j.generation = g
  | _ => True

/-- The run that a turn belongs to. -/
def Turn.run? : Turn → Option Run
  | .start run | .finish run _ _ => some run
  | .begin _ | .cancel | .reset | .failUnreadable _ _ => none

namespace JobSystem

/-! ## What a turn announces -/

/-- The announcement of the section that a turn enters. -/
def announcement (setup : Setup) (w : JobSystem) : Turn → Option Event
  | .begin program => (w.job.begin program).announces
  | .start run => if run ∈ w.waiting then (w.job.start run).announces else none
  | .finish run mint seen =>
    if run ∈ w.working then
      (w.job.finish run (Timeline.run setup mint seen run.program)).announces
    else none
  | .cancel => w.job.cancel.announces
  | .reset => w.job.reset.announces
  | .failUnreadable identity reason => (w.job.failUnreadable identity reason).announces

/-- What a turn announces, beside what it does to the outstanding runs. -/
inductive Announces (turn : Turn) (w v : JobSystem) : Option Event → Prop
  /-- Nothing is announced of any run, and none is begun. -/
  | quiet {e : Option Event} (he : ∀ event ∈ e, event.generation? = none)
      (hw : v.waiting ⊆ w.waiting) (hk : v.working ⊆ w.working)
      (hg : w.job.generation ≤ v.job.generation) : Announces turn w v e
  | begin (run : Run) (hr : run.generation = w.job.generation + 1)
      (hg : v.job.generation = run.generation) (hw : v.waiting = run :: w.waiting)
      (hk : v.working = w.working) : Announces turn w v (some run.loaded)
  | start (run : Run) (ht : turn.run? = some run) (hr : run ∈ w.waiting)
      (hc : w.job.generation = run.generation) (hg : v.job.generation = w.job.generation)
      (hw : v.waiting = w.waiting.erase run) (hk : v.working = run :: w.working) :
      Announces turn w v (some run.started)
  | finish (run : Run) (last : Event) (ht : turn.run? = some run) (he : run.Ends last)
      (hr : run ∈ w.working) (hc : w.job.generation = run.generation)
      (hg : v.job.generation = w.job.generation) (hw : v.waiting = w.waiting)
      (hk : v.working = w.working.erase run) : Announces turn w v (some last)
  | unreadable (identity reason : String) (hg : v.job.generation = w.job.generation + 1)
      (hw : v.waiting = w.waiting) (hk : v.working = w.working) :
      Announces turn w v (some (.job (.processingFailed (w.job.generation + 1) identity reason)))

theorem Announces.nothing {turn : Turn} {w v : JobSystem} (hw : v.waiting ⊆ w.waiting) (hk : v.working ⊆ w.working)
    (hg : w.job.generation ≤ v.job.generation) : Announces turn w v none :=
  .quiet (fun event he => by cases he) hw hk hg

theorem start_announces {w : JobSystem} {run : Run} (hr : run ∈ w.waiting) :
    Announces (.start run) w (w.start run) (w.job.start run).announces := by
  by_cases hc : w.job.generation = run.generation
  · rw [start, Job.start_of_current hc]
    exact .start run rfl hr hc rfl rfl rfl
  · rw [start, Job.start_of_superseded hc]
    exact .nothing (fun _ h => List.mem_of_mem_erase h) (fun _ h => h) (Nat.le_refl _)

theorem finish_announces {w : JobSystem} {run : Run} (hr : run ∈ w.working) (mint : Nat → MoveId)
    (seen : Nat → Bool) (result : Except JobError Timeline) :
    Announces (.finish run mint seen) w (w.finish run result).1 (w.job.finish run result).announces := by
  by_cases hc : w.job.generation = run.generation
  · cases ho : w.job.outcome run result with
    | ok timeline =>
      simp only [finish, Job.finish, if_pos hc, ho]
      exact .finish run _ rfl (.finished _ _) hr hc rfl rfl rfl
    | error cause =>
      simp only [finish, Job.finish, if_pos hc, ho]
      exact .finish run _ rfl (.failed _) hr hc rfl rfl rfl
  · rw [finish, Job.finish_of_superseded hc]
    exact .nothing (fun _ h => h) (fun _ h => List.mem_of_mem_erase h) (Nat.le_refl _)

theorem cancel_announces (w : JobSystem) :
    Announces .cancel w { w with job := w.job.cancel.job } w.job.cancel.announces := by
  unfold Job.cancel
  split <;> exact .nothing (fun _ h => h) (fun _ h => h) (Nat.le_refl _)

/-- **Inversion.** Every turn announces one of the things that `Announces` lists. -/
theorem take_announces (setup : Setup) (w : JobSystem) (turn : Turn) :
    Announces turn w (w.take setup turn).1 (w.announcement setup turn) := by
  cases turn with
  | begin program => exact .begin ⟨w.job.generation + 1, program⟩ rfl rfl rfl rfl
  | start run =>
    by_cases hr : run ∈ w.waiting
    · rw [take, if_pos hr, announcement, if_pos hr]
      exact start_announces hr
    · rw [take, if_neg hr, announcement, if_neg hr]
      exact .nothing (fun _ h => h) (fun _ h => h) (Nat.le_refl _)
  | finish run mint seen =>
    by_cases hr : run ∈ w.working
    · rw [take, if_pos hr, announcement, if_pos hr]
      exact finish_announces hr mint seen _
    · rw [take, if_neg hr, announcement, if_neg hr]
      exact .nothing (fun _ h => h) (fun _ h => h) (Nat.le_refl _)
  | cancel => exact cancel_announces w
  | reset =>
    refine .quiet (fun event he => ?_) (fun _ h => h) (fun _ h => h) (Nat.le_succ _)
    cases he
    rfl
  | failUnreadable identity reason => exact .unreadable identity _ rfl rfl rfl

/-- A turn announces nothing of a superseded run. -/
theorem Announces.generation_le {turn : Turn} {w v : JobSystem} {e : Option Event} (ht : Announces turn w v e)
    {event : Event} (he : event ∈ e) {g : Nat} (hg : event.generation? = some g) :
    w.job.generation ≤ g := by
  cases ht with
  | quiet hnone _ _ _ =>
    rw [hnone event he] at hg
    cases hg
  | begin run hr _ _ _ =>
    cases he
    have : run.generation = g := Option.some.inj hg
    omega
  | start run _ _ hc _ _ _ =>
    cases he
    have : run.generation = g := Option.some.inj hg
    omega
  | finish run last _ hl _ hc _ _ _ =>
    cases he
    have : run.generation = g := Option.some.inj (hl.generation.symm.trans hg)
    omega
  | unreadable identity reason _ _ _ =>
    cases he
    have : w.job.generation + 1 = g := Option.some.inj hg
    omega

/-- The job that a turn leaves bears out what the turn announces. -/
theorem take_describes (setup : Setup) (w : JobSystem) (turn : Turn) :
    ∀ e ∈ w.announcement setup turn, e.Describes (w.take setup turn).1.job := by
  intro e he
  cases turn with
  | begin program =>
    cases he
    trivial
  | start run =>
    simp only [announcement] at he
    split at he
    · unfold Job.start at he
      split at he <;> cases he
      trivial
    · cases he
  | finish run mint seen =>
    simp only [announcement] at he
    split at he
    · rename_i hr
      simp only [take, if_pos hr, finish]
      unfold Job.finish at he ⊢
      split at he
      · rename_i hc
        rw [if_pos hc]
        split at he
        · cases he
          exact ⟨rfl, _, rfl, rfl, rfl, rfl, rfl⟩
        · cases he
          exact ⟨rfl, hc⟩
      · cases he
    · cases he
  | cancel =>
    simp only [announcement] at he
    unfold Job.cancel at he
    split at he <;> cases he
  | reset =>
    cases he
    trivial
  | failUnreadable identity reason =>
    cases he
    exact ⟨rfl, rfl⟩

end JobSystem

/-! ## Turns and announcements in any order -/

/-- A system with the announcements that are under way. -/
structure Broadcast where
  system : JobSystem := {}
  /-- What was announced and is not raised yet. -/
  pending : List Event := []

/-- A turn, or an announcement that is raised. -/
inductive Broadcast.Deed where
  | turn (turn : Turn)
  | raise (event : Event)

/-- What can be seen from outside: the job after a turn, and events. -/
inductive Occurrence where
  | turned (job : Job)
  | raised (event : Event)

/-- The event of an occurrence. -/
def Occurrence.event? : Occurrence → Option Event
  | .turned _ => none
  | .raised event => some event

namespace Broadcast

/-- The events of one generation. -/
def ofGeneration (g : Nat) (events : List Event) : List Event :=
  events.filter fun e => e.generation? = some g

/-- Whether the run of a turn still has to raise its last announcement. -/
def holds (b : Broadcast) (turn : Turn) : Bool :=
  turn.run?.any fun run => !(ofGeneration run.generation b.pending).isEmpty

/-- A turn whose run has to wait, and an announcement that was not made, change nothing. -/
def take (setup : Setup) (b : Broadcast) : Deed → Broadcast × List Occurrence
  | .turn turn =>
    if b.holds turn then (b, [])
    else
      let v := (b.system.take setup turn).1
      ({ system := v, pending := b.pending ++ (b.system.announcement setup turn).toList },
        [.turned v.job])
  | .raise e =>
    if e ∈ b.pending then ({ b with pending := b.pending.erase e }, [.raised e]) else (b, [])

/-- The state after a sequence of deeds on a new job. -/
def after (setup : Setup) (deeds : List Deed) : Broadcast := (emitAll (take setup) {} deeds).1

/-- What is seen of a sequence of deeds on a new job, in order. -/
def log (setup : Setup) (deeds : List Deed) : List Occurrence :=
  (emitAll (take setup) {} deeds).2.toList

/-- The events of a log. -/
def raised (log : List Occurrence) : List Event := log.filterMap Occurrence.event?

/-- What was announced of a generation, the part that is not raised yet last. -/
def announced (b : Broadcast) (log : List Occurrence) (g : Nat) : List Event :=
  ofGeneration g (raised log) ++ ofGeneration g b.pending

/-- How far the announcements of each generation have come. -/
structure Paced (b : Broadcast) (log : List Occurrence) : Prop where
  /-- Nothing is announced of a generation that is still to come. -/
  fresh : ∀ g, b.system.job.generation < g → b.announced log g = []
  waiting : ∀ run ∈ b.system.waiting, b.announced log run.generation = [run.loaded]
  working : ∀ run ∈ b.system.working, b.announced log run.generation = [run.loaded, run.started]
  script : ∀ g, ∃ script, Script g script ∧ b.announced log g <+: script
  /-- Of each generation at most one announcement is under way. -/
  single : ∀ g, (ofGeneration g b.pending).length ≤ 1

/-! ## Announcements that are raised -/

section Lists

variable {g : Nat} {e : Event} {events : List Event}

theorem ofGeneration_append (xs ys : List Event) :
    ofGeneration g (xs ++ ys) = ofGeneration g xs ++ ofGeneration g ys :=
  List.filter_append ..

theorem ofGeneration_singleton_self (h : e.generation? = some g) : ofGeneration g [e] = [e] := by
  simp [ofGeneration, h]

theorem ofGeneration_singleton_ne (h : e.generation? ≠ some g) : ofGeneration g [e] = [] := by
  simp [ofGeneration, h]

/-- Of at most one event, the one that is taken out stood alone. -/
theorem ofGeneration_erase (hs : (ofGeneration g events).length ≤ 1) (he : e ∈ events) :
    ofGeneration g [e] ++ ofGeneration g (events.erase e) = ofGeneration g events := by
  have herase : ofGeneration g (events.erase e) = (ofGeneration g events).erase e :=
    List.erase_filter.symm
  rw [herase]
  by_cases h : e.generation? = some g
  · have hm : e ∈ ofGeneration g events := List.mem_filter.mpr ⟨he, decide_eq_true h⟩
    obtain ⟨f, hf⟩ : ∃ f, ofGeneration g events = [f] :=
      List.length_eq_one_iff.mp (Nat.le_antisymm hs (List.length_pos_of_mem hm))
    rw [hf, List.mem_singleton] at hm
    rw [hf, ofGeneration_singleton_self h, ← hm, List.erase_cons_head]
    rfl
  · have hm : e ∉ ofGeneration g events := fun hm => h (of_decide_eq_true (List.mem_filter.mp hm).2)
    rw [ofGeneration_singleton_ne h, List.erase_of_not_mem hm, List.nil_append]

end Lists

theorem raised_append (xs ys : List Occurrence) : raised (xs ++ ys) = raised xs ++ raised ys :=
  List.filterMap_append ..

section Announced

variable {b : Broadcast} {log : List Occurrence}

/-- An announcement that is raised was announced before. -/
theorem announced_raise (hp : b.Paced log) {e : Event} (he : e ∈ b.pending) (g : Nat) :
    announced { b with pending := b.pending.erase e } (log ++ [.raised e]) g = b.announced log g := by
  have hr : raised (log ++ [.raised e]) = raised log ++ [e] := raised_append log [.raised e]
  rw [announced, hr, ofGeneration_append, List.append_assoc, ofGeneration_erase (hp.single g) he, announced]

/-- What a turn announces is announced last. -/
theorem announced_turn (w : JobSystem) (e : Option Event) (j : Job) (g : Nat) :
    announced { system := w, pending := b.pending ++ e.toList } (log ++ [.turned j]) g =
      b.announced log g ++ ofGeneration g e.toList := by
  have hr : raised (log ++ [.turned j]) = raised log := by
    rw [raised_append]
    exact List.append_nil _
  rw [announced, hr, ofGeneration_append, ← List.append_assoc, announced]

theorem Paced.raise (hp : b.Paced log) {e : Event} (he : e ∈ b.pending) :
    Paced { b with pending := b.pending.erase e } (log ++ [.raised e]) where
  fresh g hg := (announced_raise hp he g).trans (hp.fresh g hg)
  waiting run hr := (announced_raise hp he _).trans (hp.waiting run hr)
  working run hr := (announced_raise hp he _).trans (hp.working run hr)
  script g := by
    rw [announced_raise hp he g]
    exact hp.script g
  single g := Nat.le_trans ((List.erase_sublist.filter _).length_le) (hp.single g)

/-! ## Announcements that are made -/

/-- An announcement continues what was announced of its generation, of which nothing else is under way. -/
structure Continues (b : Broadcast) (log : List Occurrence) (g : Nat) (e : Event) : Prop where
  generation : e.generation? = some g
  none_pending : ofGeneration g b.pending = []
  script : ∃ script, Script g script ∧ b.announced log g ++ [e] <+: script

/-- Nothing is under way of a generation of which nothing was announced. -/
theorem none_pending_of_announced {g : Nat} (h : b.announced log g = []) : ofGeneration g b.pending = [] :=
  (List.append_eq_nil_iff.mp h).2

theorem Continues.ne {g h : Nat} {e : Event} (hc : Continues b log g e) (hh : h ≠ g) :
    e.generation? ≠ some h := by
  rw [hc.generation]
  exact fun he => hh (Option.some.inj he).symm

/-- An announcement that continues its script keeps pace, if every run that is outstanding afterwards
either was so before or is the one it is about. -/
theorem Paced.continue (hp : b.Paced log) {g : Nat} {e : Event} (hc : Continues b log g e) {v : JobSystem}
    (hg : b.system.job.generation ≤ v.job.generation) (hle : g ≤ v.job.generation)
    (hw : ∀ run ∈ v.waiting, run.generation ≠ g ∧ run ∈ b.system.waiting ∨
      run.generation = g ∧ b.announced log g ++ [e] = [run.loaded])
    (hk : ∀ run ∈ v.working, run.generation ≠ g ∧ run ∈ b.system.working ∨
      run.generation = g ∧ b.announced log g ++ [e] = [run.loaded, run.started]) :
    Paced { system := v, pending := b.pending ++ [e] } (log ++ [.turned v.job]) := by
  have hannounced : ∀ h, announced { system := v, pending := b.pending ++ [e] } (log ++ [.turned v.job]) h =
      b.announced log h ++ ofGeneration h [e] := announced_turn v (some e) v.job
  have hself : announced { system := v, pending := b.pending ++ [e] } (log ++ [.turned v.job]) g =
      b.announced log g ++ [e] :=
    (hannounced g).trans (congrArg _ (ofGeneration_singleton_self hc.generation))
  have hother : ∀ h, h ≠ g →
      announced { system := v, pending := b.pending ++ [e] } (log ++ [.turned v.job]) h = b.announced log h := by
    intro h hh
    refine (hannounced h).trans ((congrArg _ (ofGeneration_singleton_ne (hc.ne hh))).trans ?_)
    exact List.append_nil _
  refine ⟨fun h hlt => ?_, fun run hr => ?_, fun run hr => ?_, fun h => ?_, fun h => ?_⟩
  · rw [hother h (Nat.ne_of_gt (Nat.lt_of_le_of_lt hle hlt))]
    exact hp.fresh h (Nat.lt_of_le_of_lt hg hlt)
  · rcases hw run hr with ⟨hne, hr⟩ | ⟨heq, hannounced⟩
    · rw [hother _ hne]
      exact hp.waiting run hr
    · rw [heq, hself, hannounced]
  · rcases hk run hr with ⟨hne, hr⟩ | ⟨heq, hannounced⟩
    · rw [hother _ hne]
      exact hp.working run hr
    · rw [heq, hself, hannounced]
  · by_cases hh : h = g
    · rw [hh, hself]
      exact hc.script
    · rw [hother h hh]
      exact hp.script h
  · rw [ofGeneration_append]
    by_cases hh : h = g
    · rw [hh, hc.none_pending, ofGeneration_singleton_self hc.generation]
      exact Nat.le_refl _
    · rw [ofGeneration_singleton_ne (hc.ne hh), List.append_nil]
      exact hp.single h

/-- What is announced of no run keeps pace. -/
theorem Paced.quiet (hp : b.Paced log) {v : JobSystem} {e : Option Event}
    (he : ∀ event ∈ e, event.generation? = none) (hw : v.waiting ⊆ b.system.waiting)
    (hk : v.working ⊆ b.system.working) (hg : b.system.job.generation ≤ v.job.generation) :
    Paced { system := v, pending := b.pending ++ e.toList } (log ++ [.turned v.job]) := by
  have hnone : ∀ g, ofGeneration g e.toList = [] := by
    intro g
    refine List.filter_eq_nil_iff.mpr fun event hm => ?_
    rw [he event (Option.mem_toList.mp hm)]
    simp
  have hsame : ∀ g, announced { system := v, pending := b.pending ++ e.toList } (log ++ [.turned v.job]) g =
      b.announced log g := by
    intro g
    rw [announced_turn, hnone, List.append_nil]
  refine ⟨fun g hlt => ?_, fun run hr => ?_, fun run hr => ?_, fun g => ?_, fun g => ?_⟩
  · exact (hsame g).trans (hp.fresh g (Nat.lt_of_le_of_lt hg hlt))
  · exact (hsame _).trans (hp.waiting run (hw hr))
  · exact (hsame _).trans (hp.working run (hk hr))
  · rw [hsame]
    exact hp.script g
  · rw [ofGeneration_append, hnone, List.append_nil]
    exact hp.single g

theorem none_pending_of_not_holds {turn : Turn} {run : Run} (hr : turn.run? = some run)
    (hh : ¬ b.holds turn = true) : ofGeneration run.generation b.pending = [] := by
  simpa [holds, hr] using hh

/-- A turn whose run does not have to wait keeps pace. -/
theorem Paced.turn (hp : b.Paced log) (hs : b.system.Sound) {turn : Turn} {v : JobSystem}
    {e : Option Event} (ht : JobSystem.Announces turn b.system v e) (hh : ¬ b.holds turn = true) :
    Paced { system := v, pending := b.pending ++ e.toList } (log ++ [.turned v.job]) := by
  cases ht with
  | quiet he hw hk hg => exact hp.quiet he hw hk hg
  | begin run hr hg hw hk =>
    have hnil : b.announced log run.generation = [] := hp.fresh _ (by omega)
    have hc : Continues b log run.generation run.loaded := by
      refine ⟨rfl, none_pending_of_announced hnil, _, .run run rfl (.failed ""), ?_⟩
      rw [hnil]
      exact List.prefix_append [run.loaded] _
    refine hp.continue hc (by omega) (by omega) (fun other ho => ?_) (fun other ho => ?_)
    · rw [hw] at ho
      rcases List.mem_cons.mp ho with rfl | ho
      · exact .inr ⟨rfl, by rw [hnil, List.nil_append]⟩
      · have := hs.waiting_le ho
        exact .inl ⟨by omega, ho⟩
    · rw [hk] at ho
      have := hs.working_le ho
      exact .inl ⟨by omega, ho⟩
  | start run ht hr hcur hg hw hk =>
    obtain ⟨-, hne⟩ := JobSystem.rest_of_perm hs.nodup (JobSystem.perm_of_waiting hr)
    have hannounced := hp.waiting run hr
    have hc : Continues b log run.generation run.started := by
      refine ⟨rfl, none_pending_of_not_holds ht hh, _, .run run rfl (.failed ""), ?_⟩
      rw [hannounced]
      exact List.prefix_append [run.loaded, run.started] _
    refine hp.continue hc (by omega) (by omega) (fun other ho => ?_) (fun other ho => ?_)
    · rw [hw] at ho
      exact .inl ⟨hne other (List.mem_append_left _ ho), List.mem_of_mem_erase ho⟩
    · rw [hk] at ho
      rcases List.mem_cons.mp ho with rfl | ho
      · exact .inr ⟨rfl, by rw [hannounced]; rfl⟩
      · exact .inl ⟨hne other (List.mem_append_right _ ho), ho⟩
  | finish run last ht he hr hcur hg hw hk =>
    obtain ⟨-, hne⟩ := JobSystem.rest_of_perm hs.nodup (JobSystem.perm_of_working hr)
    have hc : Continues b log run.generation last := by
      refine ⟨he.generation, none_pending_of_not_holds ht hh, _, .run run rfl he, ?_⟩
      rw [hp.working run hr]
      exact List.prefix_refl _
    refine hp.continue hc (by omega) (by omega) (fun other ho => ?_) (fun other ho => ?_)
    · rw [hw] at ho
      exact .inl ⟨hne other (List.mem_append_left _ ho), ho⟩
    · rw [hk] at ho
      exact .inl ⟨hne other (List.mem_append_right _ ho), List.mem_of_mem_erase ho⟩
  | unreadable identity reason hg hw hk =>
    have hnil : b.announced log (b.system.job.generation + 1) = [] := hp.fresh _ (Nat.lt_succ_self _)
    have hc : Continues b log (b.system.job.generation + 1)
        (.job (.processingFailed (b.system.job.generation + 1) identity reason)) := by
      refine ⟨rfl, none_pending_of_announced hnil, _, .unreadable identity reason, ?_⟩
      rw [hnil]
      exact List.prefix_refl _
    refine hp.continue hc (by omega) (by omega) (fun other ho => ?_) (fun other ho => ?_)
    · rw [hw] at ho
      have := hs.waiting_le ho
      exact .inl ⟨by omega, ho⟩
    · rw [hk] at ho
      have := hs.working_le ho
      exact .inl ⟨by omega, ho⟩

/-! ## Sequences of deeds -/

/-- The invariant of turns and announcements. -/
structure Orderly (b : Broadcast) (log : List Occurrence) : Prop where
  sound : b.system.Sound
  paced : b.Paced log
  /-- What is to be raised was true of the job after some turn. -/
  describes : ∀ e ∈ b.pending, ∃ j, .turned j ∈ log ∧ e.Describes j

theorem orderly_empty : Orderly {} [] where
  sound := JobSystem.sound_empty
  paced :=
    { fresh := fun _ _ => rfl
      waiting := fun run hr => by cases hr
      working := fun run hr => by cases hr
      script := fun _ => ⟨_, .unreadable "" "", List.nil_prefix⟩
      single := fun _ => Nat.zero_le _ }
  describes := by
    intro e he
    cases he

/-- **Step.** Every deed keeps the invariant. -/
theorem Orderly.take (setup : Setup) (h : b.Orderly log) (deed : Deed) :
    (b.take setup deed).1.Orderly (log ++ (b.take setup deed).2) := by
  cases deed with
  | turn turn =>
    simp only [Broadcast.take]
    split
    · rwa [List.append_nil]
    · rename_i hh
      refine ⟨(JobSystem.take_change setup b.system turn).sound h.sound,
        h.paced.turn h.sound (JobSystem.take_announces setup b.system turn) hh, fun e he => ?_⟩
      rcases List.mem_append.mp he with he | he
      · obtain ⟨j, hj, hb⟩ := h.describes e he
        exact ⟨j, List.mem_append_left _ hj, hb⟩
      · refine ⟨_, List.mem_append_right _ List.mem_cons_self, ?_⟩
        exact JobSystem.take_describes setup b.system turn e (Option.mem_toList.mp he)
  | raise e =>
    simp only [Broadcast.take]
    split
    · rename_i he
      refine ⟨h.sound, h.paced.raise he, fun event hm => ?_⟩
      obtain ⟨j, hj, hb⟩ := h.describes event (List.mem_of_mem_erase hm)
      exact ⟨j, List.mem_append_left _ hj, hb⟩
    · rwa [List.append_nil]

/-- No deed adds to what was announced of a superseded run. -/
theorem announced_take (setup : Setup) (h : b.Orderly log) {g : Nat} (hg : g < b.system.job.generation)
    (deed : Deed) :
    (b.take setup deed).1.announced (log ++ (b.take setup deed).2) g = b.announced log g ∧
      g < (b.take setup deed).1.system.job.generation := by
  cases deed with
  | turn turn =>
    simp only [Broadcast.take]
    split
    · rw [List.append_nil]
      exact ⟨rfl, hg⟩
    · refine ⟨?_, Nat.lt_of_lt_of_le hg (JobSystem.take_change setup b.system turn).generation_le⟩
      have hnone : ofGeneration g (b.system.announcement setup turn).toList = [] := by
        refine List.filter_eq_nil_iff.mpr fun e he hd => ?_
        have := (JobSystem.take_announces setup b.system turn).generation_le (Option.mem_toList.mp he)
          (of_decide_eq_true hd)
        omega
      rw [announced_turn, hnone, List.append_nil]
  | raise e =>
    simp only [Broadcast.take]
    split
    · rename_i he
      exact ⟨announced_raise h.paced he g, hg⟩
    · rw [List.append_nil]
      exact ⟨rfl, hg⟩

end Announced

/-- **Run.** What every step keeps, together with all that was emitted, is kept by every sequence. -/
theorem emitAll_keeps {σ α ε : Type} {step : σ → α → σ × List ε} {P : σ → List ε → Prop}
    (hstep : ∀ s out x, P s out → P (step s x).1 (out ++ (step s x).2)) {s : σ} {out : List ε}
    (h : P s out) (xs : List α) : P (emitAll step s xs).1 (out ++ (emitAll step s xs).2.toList) := by
  induction xs generalizing s out with
  | nil =>
    rw [emitAll_nil]
    simpa using h
  | cons x xs ih =>
    rw [emitAll_cons, Array.toList_append, ← List.append_assoc]
    exact ih (hstep s out x h)

theorem after_orderly (setup : Setup) (deeds : List Deed) :
    (after setup deeds).Orderly (log setup deeds) :=
  emitAll_keeps (fun _ _ deed h => h.take setup deed) orderly_empty deeds

/-- Whatever deeds follow, what is raised of a superseded run was announced before. -/
theorem ofGeneration_prefix_announced (setup : Setup) (deeds : List Deed) {g : Nat}
    (hg : g < (after setup deeds).system.job.generation) (later : List Deed) :
    ofGeneration g (raised (log setup (deeds ++ later))) <+:
      (after setup deeds).announced (log setup deeds) g := by
  have hkeeps := @emitAll_keeps _ _ _ (take setup)
    (fun b log' => b.Orderly log' ∧ g < b.system.job.generation ∧
      b.announced log' g = (after setup deeds).announced (log setup deeds) g)
    (fun b log' deed h => by
      obtain ⟨horderly, hlt, hannounced⟩ := h
      obtain ⟨hsame, hlt'⟩ := announced_take setup horderly hlt deed
      exact ⟨horderly.take setup deed, hlt', hsame.trans hannounced⟩)
    _ _ ⟨after_orderly setup deeds, hg, rfl⟩ later
  have hlog : log setup (deeds ++ later) =
      log setup deeds ++ (emitAll (take setup) (after setup deeds) later).2.toList := by
    rw [log, emitAll_append, Array.toList_append]
    rfl
  rw [hlog, ← hkeeps.2.2]
  exact List.prefix_append _ _

/-! ## The protocol of events -/

/-- Whether an event is that a generation was finished. -/
def isFinishOf (g : Nat) : Event → Bool
  | .job (.processingFinished own _ _ _) => own = g
  | _ => false

theorem generation?_of_isFinishOf {g : Nat} {e : Event} (h : isFinishOf g e = true) :
    e.generation? = some g := by
  unfold isFinishOf at h
  split at h
  · rw [← of_decide_eq_true h]
    rfl
  · cases h

/-- A script holds at most one finish. -/
theorem length_finish_le {g : Nat} {script : List Event} (h : Script g script) :
    (script.filter (isFinishOf g)).length ≤ 1 := by
  cases h with
  | run run hg he =>
    have hl : isFinishOf g run.loaded = false := rfl
    have hs : isFinishOf g run.started = false := rfl
    rw [List.filter_cons_of_neg (by simp [hl]), List.filter_cons_of_neg (by simp [hs])]
    exact List.length_filter_le _ _
  | unreadable identity reason => exact List.length_filter_le _ _

/-- What is raised of a job that some deeds have led to `b`, whatever deeds follow. -/
structure EventProtocol (setup : Setup) (deeds : List Deed) (b : Broadcast) : Prop where
  /-- The events of a generation come in the order of a script. -/
  ordered : ∀ g, ∃ script, Script g script ∧
    ofGeneration g (raised (log setup deeds)) <+: script
  /-- A generation is finished at most once. -/
  once : ∀ g, ((raised (log setup deeds)).filter (isFinishOf g)).length ≤ 1
  /-- Of a run that was superseded before its start, nothing but its loading is ever raised. -/
  unstarted : ∀ run ∈ b.system.waiting, b.system.job.generation ≠ run.generation → ∀ later,
    ofGeneration run.generation (raised (log setup (deeds ++ later))) <+: [run.loaded]
  /-- Of a run that was superseded before its end, no end is ever raised. -/
  unfinished : ∀ run ∈ b.system.working, b.system.job.generation ≠ run.generation → ∀ later,
    ofGeneration run.generation (raised (log setup (deeds ++ later))) <+: [run.loaded, run.started]
  /-- A finish is raised only after the job has shown the course that it describes. -/
  finished : ∀ deed g identity moves problems,
    .raised (.job (.processingFinished g identity moves problems)) ∈ (b.take setup deed).2 →
      ∃ j, .turned j ∈ log setup deeds ∧ j.phase = .ready ∧
        ∃ s, j.snapshot = some s ∧ s.generation = g ∧ s.identity = identity ∧
          s.moveCount = moves ∧ s.diagnostics.length = problems
  /-- A failure is raised only after the job has failed under that generation. -/
  failed : ∀ deed g identity reason,
    .raised (.job (.processingFailed g identity reason)) ∈ (b.take setup deed).2 →
      ∃ j, .turned j ∈ log setup deeds ∧ j.phase = .failed ∧ j.generation = g

/-- Only what is pending is raised. -/
theorem mem_pending_of_raised {setup : Setup} {b : Broadcast} {deed : Deed} {e : Event}
    (h : .raised e ∈ (b.take setup deed).2) : e ∈ b.pending := by
  cases deed with
  | turn turn =>
    simp only [take] at h
    split at h
    · cases h
    · cases List.mem_singleton.mp h
  | raise event =>
    simp only [take] at h
    split at h
    · cases List.mem_singleton.mp h
      assumption
    · cases h

/-- **Events keep to their protocol.** Whatever turns are taken in whatever order, and however late what
they announce is raised. -/
theorem event_protocol (setup : Setup) (deeds : List Deed) :
    EventProtocol setup deeds (after setup deeds) := by
  have horderly := after_orderly setup deeds
  have hordered : ∀ g, ∃ script, Script g script ∧
      ofGeneration g (raised (log setup deeds)) <+: script := by
    intro g
    obtain ⟨script, hs, hp⟩ := horderly.paced.script g
    exact ⟨script, hs, (List.prefix_append _ _).trans hp⟩
  refine ⟨hordered, fun g => ?_, fun run hr hne later => ?_, fun run hr hne later => ?_,
    fun deed g identity moves problems h => ?_, fun deed g identity reason h => ?_⟩
  · obtain ⟨script, hs, hp⟩ := hordered g
    have hsub : (raised (log setup deeds)).filter (isFinishOf g) =
        (ofGeneration g (raised (log setup deeds))).filter (isFinishOf g) := by
      rw [ofGeneration, List.filter_filter]
      refine List.filter_congr fun e _ => ?_
      cases hf : isFinishOf g e with
      | false => rfl
      | true => simp [generation?_of_isFinishOf hf]
    rw [hsub]
    exact Nat.le_trans ((hp.sublist.filter _).length_le) (length_finish_le hs)
  · have hlt := Nat.lt_of_le_of_ne (horderly.sound.waiting_le hr) (Ne.symm hne)
    rw [← horderly.paced.waiting run hr]
    exact ofGeneration_prefix_announced setup deeds hlt later
  · have hlt := Nat.lt_of_le_of_ne (horderly.sound.working_le hr) (Ne.symm hne)
    rw [← horderly.paced.working run hr]
    exact ofGeneration_prefix_announced setup deeds hlt later
  · obtain ⟨j, hj, hb⟩ := horderly.describes _ (mem_pending_of_raised h)
    exact ⟨j, hj, hb⟩
  · obtain ⟨j, hj, hb⟩ := horderly.describes _ (mem_pending_of_raised h)
    exact ⟨j, hj, hb⟩

/-- A run starts only when its loading is out, and what comes of it is raised in order. -/
example :
    let run : Run := ⟨1, ⟨"part.nc", "G0 X1"⟩⟩
    let last : Event := .job (.processingFinished 1 "part.nc" 1 0)
    let deeds : List Deed := [.turn (.begin run.program), .turn (.start run), .raise run.loaded,
      .turn (.start run), .raise run.started, .turn (.finish run (MoveId.mint 1) fun _ => false),
      .raise last]
    raised (log {} deeds) = [run.loaded, run.started, last] := by
  decide +kernel

end Broadcast

end Toolpath
