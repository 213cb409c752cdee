import Toolpath.Proofs.Session.Seeking

/-!
# Requests without effect

The operations of `Job` and `Playback` may be called at any time: before a course is published, after it
was withdrawn, or through a cursor with the range of another course. A request is checked before
anything is done, so one that is refused changes nothing.

* `Session.Request`, `Session.Reply`: what a user can ask, and what comes back. `Reply.isVoid` are the replies
  that say that nothing was done.
* `Session.AnnouncedMove`: one move of the published course was announced, with everything that its listeners did.
* `Step.selectWith_selectOutcome`, `Step.landOn_selectOutcome`: selecting and landing, by what they answer.
* `Step.load_begins`: a run that was begun does not answer like one that was not.
* `Session.void_leaves_session`: a void reply leaves the session as it was, and a selection announces one event.
-/

namespace Toolpath

namespace Session

/-- What a user can ask of a job and of the cursors on it. -/
inductive Request where
  | select (index : Nat)
  | selectMove (id : MoveId)
  /-- The tables of the published course. -/
  | tables
  | seek (cursor index : Nat)
  | stepForward (cursor : Nat)
  | stepBack (cursor : Nat)
  | reload
  /-- Begins a run for a worker. -/
  | dispatch (hasWorker : Bool) (program : Program)
  | dispatchReload (hasWorker : Bool)
  | cancel

/-- What comes back. -/
inductive Reply where
  | refused (cause : IndexError)
  /-- There is no place to step to. -/
  | nowhere
  | selected (move : Move)
  | tables (index : SelectionIndex)
  /-- There is no run, or it came to nothing. -/
  | failed (cause : JobError)
  /-- A run was begun or carried out. -/
  | accepted
  | cancelled (found : Bool)

namespace Reply

/-- Whether a reply says that nothing was done. -/
def isVoid : Reply → Bool
  | .refused _ | .nowhere | .failed .noProgram | .failed .noWorker | .cancelled false => true
  | _ => false

def ofSelection : Except IndexError Move → Reply
  | .ok m => .selected m
  | .error cause => .refused cause

def ofStep : Except IndexError (Option Move) → Reply
  | .ok (some m) => .selected m
  | .ok none => .nowhere
  | .error cause => .refused cause

def ofTables : Except IndexError SelectionIndex → Reply
  | .ok index => .tables index
  | .error cause => .refused cause

def ofRun {α : Type} : Except JobError α → Reply
  | .ok _ => .accepted
  | .error cause => .failed cause

end Reply

namespace Request

open Step in
/-- Does what is asked. -/
def submit : Request → Step Reply
  | .select index => return .ofSelection (← Step.select tell index)
  | .selectMove id => return .ofSelection (← Step.selectMove tell id)
  | .tables => return .ofTables (← get).selectionIndex
  | .seek cursor index => return .ofSelection (← Step.seek tell cursor index)
  | .stepForward cursor => return .ofStep (← Step.stepForward tell cursor)
  | .stepBack cursor => return .ofStep (← Step.stepBack tell cursor)
  | .reload => return .ofRun (← Step.reload tell)
  | .dispatch hasWorker program => return .ofRun (← Step.dispatch hasWorker program)
  | .dispatchReload hasWorker => return .ofRun (← Step.dispatchReload hasWorker)
  | .cancel => return .cancelled (← Step.cancel)

/-- The cursor that is to move, and the place that it is to go to. -/
def target (s : Session) : Request → Option (Nat × Nat)
  | .seek cursor index => some (cursor, index)
  | .stepForward cursor => (s.cursor cursor).next?.map (cursor, ·)
  | .stepBack cursor => (s.cursor cursor).previous?.map (cursor, ·)
  | _ => none

/-- Whether a step is asked for from the last place of a range on, or back from its first one. -/
def AtEdge (s : Session) : Request → Prop
  | .stepForward cursor => (s.cursor cursor).maximum ≤ (s.cursor cursor).position
  | .stepBack cursor => (s.cursor cursor).position = 0
  | _ => False

end Request

/-- The session after a cursor went to its place. -/
def landAt (s : Session) : Option (Nat × Nat) → Session
  | some (id, index) => s.setCursor id ((s.cursor id).land index)
  | none => s

@[simp] theorem bus_landAt (s : Session) (target : Option (Nat × Nat)) : (s.landAt target).bus = s.bus := by
  cases target <;> rfl

/-- From `s` to `t` a move of the published course was announced, with everything that its listeners did. -/
def AnnouncedMove (s : Session) (m : Move) (t : Session) : Prop :=
  ∃ course, s.job.snapshot = some course ∧ m ∈ course.index.moves ∧
    (Step.tell (course.selected m)).run s = (.ok (), t)

/-- What became of a selection: it was refused and nothing was done, or its move was announced before the cursor
went there. -/
def SelectOutcome (s : Session) (target : Option (Nat × Nat)) : Except IndexError Move → Session → Prop
  | .error _, t => t = s
  | .ok m, t => ∃ u, s.AnnouncedMove m u ∧ t = u.landAt target

end Session

theorem SelectionIndex.mem_of_moveAt {index : SelectionIndex} {live i : Nat} {m : Move}
    (h : index.moveAt live i = .ok m) : m ∈ index.moves := by
  obtain ⟨_, -, h⟩ := exists_of_bind_ok h
  split at h
  · rename_i found hfound
    cases h
    exact Array.mem_of_getElem? hfound
  · cases h

namespace Job

/-- A run that does not start is superseded. -/
theorem start_answer_error {j : Job} {run : Run} {cause : JobError}
    (h : (j.start run).answer = .error cause) : cause = .superseded run.generation := by
  by_cases hg : j.generation = run.generation
  · rw [start_of_current hg] at h
    cases h
  · rw [start_of_superseded hg] at h
    cases h
    rfl

/-- A run that is not published is superseded or cancelled. -/
theorem finish_answer_error {setup : Setup} {mint : Nat → MoveId} {seen : Nat → Bool} {j : Job} {run : Run}
    {cause : JobError} (h : (j.finish run (Timeline.run setup mint seen run.program)).answer = .error cause) :
    cause = .superseded run.generation ∨ cause = .cancelled run.program.identity := by
  by_cases hg : j.generation = run.generation
  · rw [finish, if_pos hg] at h
    split at h
    · cases h
    · rename_i found houtcome
      cases h
      exact .inr (outcome_error houtcome)
  · rw [finish_of_superseded hg] at h
    cases h
    exact .inl rfl

/-- Where there is nothing to cancel, nothing is done. -/
theorem cancel_of_idle {j : Job} (h : j.cancel.answer = false) : j.cancel.job = j := by
  unfold cancel at h ⊢
  split
  · rename_i htoken hbusy
    simp [htoken, hbusy] at h
  · rfl

theorem cancel_silent (j : Job) : j.cancel.announces = none := by
  unfold cancel
  split <;> rfl

end Job

namespace Step

open Session

variable {α : Type} {s t : Session}

/-! ## Selecting -/

theorem selectWith_selectOutcome {find : Snapshot → Nat → Except IndexError Move}
    (hfind : ∀ course live m, find course live = .ok m → m ∈ course.index.moves)
    {answer : Except IndexError Move} (h : (selectWith tell find).run s = (.ok answer, t)) :
    s.SelectOutcome none answer t := by
  rw [selectWith, run_get_bind] at h
  dsimp only at h
  cases hshown : s.job.snapshot with
  | none =>
    rw [hshown] at h
    cases h
    rfl
  | some course =>
    rw [hshown] at h
    dsimp only at h
    cases hfound : find course s.job.live with
    | error cause =>
      rw [hfound] at h
      cases h
      rfl
    | ok m =>
      rw [hfound] at h
      obtain ⟨_, v, htell, h⟩ := exists_of_run_bind h
      cases h
      exact ⟨t, ⟨course, hshown, hfind course _ m hfound, htell⟩, rfl⟩

theorem select_selectOutcome {i : Nat} {answer : Except IndexError Move}
    (h : (select tell i).run s = (.ok answer, t)) : s.SelectOutcome none answer t :=
  selectWith_selectOutcome (fun _ _ _ hfound => SelectionIndex.mem_of_moveAt hfound) h

theorem selectMove_selectOutcome {id : MoveId} {answer : Except IndexError Move}
    (h : (selectMove tell id).run s = (.ok answer, t)) : s.SelectOutcome none answer t := by
  refine selectWith_selectOutcome (fun _ _ _ hfound => ?_) h
  obtain ⟨i, -, hfound⟩ := exists_of_bind_ok hfound
  exact SelectionIndex.mem_of_moveAt hfound

theorem landOn_selectOutcome {id i : Nat} {answer : Except IndexError Move}
    (h : (landOn tell id i).run s = (.ok answer, t)) : s.SelectOutcome (some (id, i)) answer t := by
  obtain ⟨found, v, hselect, h⟩ := exists_of_run_bind h
  have hchose := select_selectOutcome hselect
  cases found with
  | error cause =>
    cases h
    exact hchose
  | ok m =>
    obtain ⟨u, hannounced, rfl⟩ := hchose
    cases h
    exact ⟨_, hannounced, rfl⟩

theorem seek_selectOutcome {id i : Nat} {answer : Except IndexError Move}
    (h : (seek tell id i).run s = (.ok answer, t)) : s.SelectOutcome (some (id, i)) answer t := by
  by_cases hi : i ≤ (s.cursor id).maximum
  · rw [run_seek_of_le hi] at h
    exact landOn_selectOutcome h
  · rw [run_seek_of_lt (Nat.not_le.mp hi)] at h
    cases h
    rfl

/-- A step to a neighbouring place: there is none and nothing is done, or it is selected. -/
theorem landOn?_selectOutcome {id : Nat} {place : Option Nat} {answer : Except IndexError (Option Move)}
    (h : (landOn? tell id place).run s = (.ok answer, t)) :
    (place = none ∧ answer = .ok none ∧ t = s) ∨
      ∃ i found, place = some i ∧ answer = found.map some ∧ s.SelectOutcome (some (id, i)) found t := by
  cases place with
  | none =>
    cases h
    exact .inl ⟨rfl, rfl, rfl⟩
  | some i =>
    obtain ⟨found, hland, rfl⟩ := exists_of_run_return h
    exact .inr ⟨i, found, rfl, rfl, landOn_selectOutcome hland⟩

/-! ## Runs -/

/-- A section that announces nothing. -/
theorem run_inSection_of_silent {act : Job → Section α} (he : (act s.job).announces = none) :
    (inSection tell act).run s = (.ok (act s.job).answer, { s with job := (act s.job).job }) := by
  rw [inSection, run_get_bind]
  simp only [he]
  rfl

theorem inSection_answer {act : Job → Section α} {a : α}
    (h : (inSection tell act).run s = (.ok a, t)) : (act s.job).answer = a := by
  cases he : (act s.job).announces with
  | none =>
    rw [run_inSection_of_silent he] at h
    cases h
    rfl
  | some e =>
    rw [inSection, run_get_bind] at h
    obtain ⟨_, _, hmodify, h⟩ := exists_of_run_bind h
    cases hmodify
    simp only [he] at h
    obtain ⟨_, v, htell, h⟩ := exists_of_run_bind h
    cases h
    rfl

/-- A run that was begun and comes to nothing says so otherwise than a run that was not begun. -/
theorem execute_begins {run : Run} {answer : Except JobError Snapshot}
    (h : (execute tell run).run s = (.ok answer, t)) : (Reply.ofRun answer).isVoid = false := by
  obtain ⟨started, v, hstart, h⟩ := exists_of_run_bind h
  have hstarted := inSection_answer hstart
  cases started with
  | error cause =>
    cases h
    rw [Job.start_answer_error hstarted]
    rfl
  | ok _ =>
    rw [run_get_bind] at h
    have hfinished := inSection_answer h
    cases answer with
    | ok course => rfl
    | error cause => rcases Job.finish_answer_error hfinished with rfl | rfl <;> rfl

theorem load_begins {program : Program} {answer : Except JobError Snapshot}
    (h : (load tell program).run s = (.ok answer, t)) : (Reply.ofRun answer).isVoid = false := by
  obtain ⟨run, v, -, h⟩ := exists_of_run_bind h
  exact execute_begins h

/-- Without a program nothing is carried out again. -/
theorem reload_of_void {answer : Except JobError Snapshot} (h : (reload tell).run s = (.ok answer, t))
    (hvoid : (Reply.ofRun answer).isVoid = true) : t = s := by
  rw [reload, run_get_bind] at h
  cases hbound : s.job.program with
  | none =>
    rw [hbound] at h
    cases h
    rfl
  | some program =>
    rw [hbound] at h
    rw [load_begins h] at hvoid
    cases hvoid

theorem dispatch_of_void {hasWorker : Bool} {program : Program} {answer : Except JobError Run}
    (h : (dispatch hasWorker program).run s = (.ok answer, t))
    (hvoid : (Reply.ofRun answer).isVoid = true) : t = s := by
  cases hasWorker with
  | false =>
    cases h
    rfl
  | true =>
    obtain ⟨run, v, -, h⟩ := exists_of_run_bind h
    cases h
    cases hvoid

theorem dispatchReload_of_void {hasWorker : Bool} {answer : Except JobError Run}
    (h : (dispatchReload hasWorker).run s = (.ok answer, t))
    (hvoid : (Reply.ofRun answer).isVoid = true) : t = s := by
  rw [dispatchReload, run_get_bind] at h
  cases hasWorker with
  | false =>
    cases h
    rfl
  | true =>
    cases hbound : s.job.program with
    | none =>
      rw [hbound] at h
      cases h
      rfl
    | some program =>
      rw [hbound] at h
      exact dispatch_of_void h hvoid

theorem cancel_of_void (h : cancel.run s = (.ok false, t)) : t = s := by
  have hidle := Job.cancel_of_idle (inSection_answer h)
  rw [cancel, run_inSection_of_silent (Job.cancel_silent s.job), hidle] at h
  exact (Prod.mk.inj h).2.symm

end Step

namespace Session

open Step

/-- What a reply says about the session after a request. -/
structure ReplySound (s : Session) (request : Request) (reply : Reply) (t : Session) : Prop where
  /-- What was not done has left no trace. -/
  void : reply.isVoid = true → t = s
  nowhere_iff : reply = .nowhere ↔ request.AtEdge s
  /-- A selection announces its move once, and then the cursor goes there. -/
  selected : ∀ m, reply = .selected m → ∃ u, s.AnnouncedMove m u ∧ t = u.landAt (request.target s)
  /-- If nobody acts on it, that is all that the bus carries. -/
  carried : ∀ m, reply = .selected m → s.armed = [] → ∃ course, s.job.snapshot = some course ∧
    s.bus.Carries t.bus (.inTurn [course.selected m]) ∧
    t = (s.withEvent (course.selected m)).landAt (request.target s)

variable {s t : Session} {request : Request}

/-- A move is announced while nobody acts. -/
theorem AnnouncedMove.withEvent {m : Move} (h : s.AnnouncedMove m t) (hs : s.armed = []) :
    ∃ course, s.job.snapshot = some course ∧ t = s.withEvent (course.selected m) := by
  obtain ⟨course, hshown, -, htell⟩ := h
  have hleads : Leads s (tell (course.selected m)) fun _ u => u = t := ⟨_, t, htell, rfl⟩
  exact ⟨course, hshown, ((leads_tell hs rfl).mp hleads).symm⟩

/-- A reply that says nothing about moves. -/
theorem ReplySound.of_void {reply : Reply} (hvoid : reply.isVoid = true → t = s)
    (hnowhere : reply = .nowhere ↔ request.AtEdge s) (hselected : ∀ m, reply ≠ .selected m) :
    ReplySound s request reply t where
  void := hvoid
  nowhere_iff := hnowhere
  selected m hm := (hselected m hm).elim
  carried m hm := (hselected m hm).elim

theorem ReplySound.of_selectOutcome {answer : Except IndexError Move} (h : s.SelectOutcome (request.target s) answer t)
    (hedge : ¬ request.AtEdge s) : ReplySound s request (.ofSelection answer) t := by
  cases answer with
  | error cause =>
    rw [Reply.ofSelection]
    exact .of_void (fun _ => h) (iff_of_false (by simp) hedge) (by simp)
  | ok m =>
    obtain ⟨u, hannounced, rfl⟩ := h
    rw [Reply.ofSelection]
    refine ⟨by simp [Reply.isVoid], iff_of_false (by simp) hedge, ?_, ?_⟩
    · rintro m ⟨⟩
      exact ⟨u, hannounced, rfl⟩
    · rintro m ⟨⟩ hs
      obtain ⟨course, hshown, rfl⟩ := hannounced.withEvent hs
      refine ⟨course, hshown, ?_, rfl⟩
      rw [bus_landAt]
      exact s.carries_withEvent _

theorem ReplySound.of_step {id : Nat} {place : Option Nat} {answer : Except IndexError (Option Move)}
    (htarget : request.target s = place.map (id, ·)) (hedge : request.AtEdge s ↔ place = none)
    (h : (landOn? tell id place).run s = (.ok answer, t)) : ReplySound s request (.ofStep answer) t := by
  rcases landOn?_selectOutcome h with ⟨hnone, rfl, rfl⟩ | ⟨i, found, rfl, rfl, hchose⟩
  · rw [Reply.ofStep]
    exact .of_void (fun _ => rfl) (iff_of_true rfl (hedge.mpr hnone)) (by simp)
  · have hreply : Reply.ofStep (found.map some) = .ofSelection found := by cases found <;> rfl
    rw [hreply]
    exact .of_selectOutcome (by rwa [htarget]) (by simp [hedge])

theorem ReplySound.of_run {α : Type} {answer : Except JobError α}
    (hvoid : (Reply.ofRun answer).isVoid = true → t = s) (hedge : ¬ request.AtEdge s) :
    ReplySound s request (.ofRun answer) t := by
  refine .of_void hvoid (iff_of_false ?_ hedge) ?_ <;> cases answer <;> simp [Reply.ofRun]

/-- **What comes to nothing leaves no trace.** In every session, whatever its job is doing and however far its
cursors lag behind: a request that is refused, has nowhere to go, has no program or worker, or finds nothing to
cancel leaves everything as it was and announces nothing. One that selects a move announces that move of the
published course, once. -/
theorem void_leaves_session (s : Session) (request : Request) {reply : Reply} {t : Session}
    (h : request.submit.run s = (.ok reply, t)) : ReplySound s request reply t := by
  cases request with
  | select index =>
    obtain ⟨answer, hrun, rfl⟩ := exists_of_run_return h
    exact .of_selectOutcome (select_selectOutcome hrun) not_false
  | selectMove id =>
    obtain ⟨answer, hrun, rfl⟩ := exists_of_run_return h
    exact .of_selectOutcome (selectMove_selectOutcome hrun) not_false
  | tables =>
    rw [Request.submit, run_get_bind] at h
    cases h
    refine .of_void (fun _ => rfl) (iff_of_false ?_ not_false) ?_ <;>
      cases s.selectionIndex <;> simp [Reply.ofTables]
  | seek cursor index =>
    obtain ⟨answer, hrun, rfl⟩ := exists_of_run_return h
    exact .of_selectOutcome (seek_selectOutcome hrun) not_false
  | stepForward cursor =>
    obtain ⟨answer, hrun, rfl⟩ := exists_of_run_return h
    refine .of_step rfl ?_ hrun
    simp [Request.AtEdge, Cursor.next?]
  | stepBack cursor =>
    obtain ⟨answer, hrun, rfl⟩ := exists_of_run_return h
    refine .of_step rfl ?_ hrun
    simp [Request.AtEdge, Cursor.previous?]
  | reload =>
    obtain ⟨answer, hrun, rfl⟩ := exists_of_run_return h
    exact .of_run (reload_of_void hrun) not_false
  | dispatch hasWorker program =>
    obtain ⟨answer, hrun, rfl⟩ := exists_of_run_return h
    exact .of_run (dispatch_of_void hrun) not_false
  | dispatchReload hasWorker =>
    obtain ⟨answer, hrun, rfl⟩ := exists_of_run_return h
    exact .of_run (dispatchReload_of_void hrun) not_false
  | cancel =>
    obtain ⟨found, hrun, rfl⟩ := exists_of_run_return h
    refine .of_void (fun hvoid => ?_) (iff_of_false (by simp) not_false) (by simp)
    cases found with
    | true => cases hvoid
    | false => exact cancel_of_void hrun

/-- A cursor on the last of two moves: there is nothing to step on to, and the move before it is selected. -/
theorem void_leaves_session_at_end :
    let run : Run := ⟨1, ⟨"a.nc", "G0 X1\nG0 X2"⟩⟩
    let turns : List Turn :=
      [.begin run.program, .start run, .finish run (MoveId.mint 1) fun _ => false]
    let s : Session :=
      { setup := {}, job := (JobSystem.after {} turns).job, bus := { config := { keepsHistory := true } },
        cursors := #[⟨1, 1, true, 1⟩] }
    Leads s (Request.stepForward 0).submit (fun reply t => reply = .nowhere ∧ t = s) ∧
      Leads s (Request.stepBack 0).submit fun reply t => ∃ course m, reply = .selected m ∧
        s.job.snapshot = some course ∧ s.bus.Carries t.bus (.inTurn [course.selected m]) := by
  intro run turns s
  constructor
  · have hvoid : Leads s (Request.stepForward 0).submit fun reply _ => reply.isVoid = true := by
      decide +kernel
    obtain ⟨reply, t, hrun, hreply⟩ := hvoid
    have hdone := void_leaves_session s (.stepForward 0) hrun
    exact ⟨reply, t, hrun, hdone.nowhere_iff.mpr (Nat.le_refl 1), hdone.void hreply⟩
  · have hselected : Leads s (Request.stepBack 0).submit fun reply _ =>
        (match reply with
          | .selected _ => true
          | _ => false) = true := by
      decide +kernel
    obtain ⟨reply, t, hrun, hreply⟩ := hselected
    cases reply with
    | selected m =>
      obtain ⟨course, hshown, hcarries, -⟩ := (void_leaves_session s (.stepBack 0) hrun).carried m rfl rfl
      exact ⟨_, t, hrun, course, m, rfl, hshown, hcarries⟩
    | _ => cases hreply

end Session

end Toolpath
