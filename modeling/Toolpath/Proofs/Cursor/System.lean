import Mathlib.Data.List.Induction
import Toolpath.Proofs.Job.Staleness
import Toolpath.Proofs.Session.Following

/-!
# A cursor under concurrent operations

`step`, `step_back` and `seek` of `Playback` read the cursor, select a move of the published course and
then put the cursor there (`land_on`). `refresh` reads what is published, and then gives the cursor its
range (`set_range`). Each of these takes several turns, and other parties may take theirs in between.

* `CursorTask`: what a party is in the middle of; `CursorTask.next?` and `CursorTask.moves` are its next turn.
* `CursorSystem.take`: one turn of some party, with `CursorSystem.after` for a sequence of them.
* `CursorSystem.perform_eq`, `CursorSystem.refresh_eq`: a task that nobody comes between is the operation on a
  session.
* `CursorSystem.within_throughout_iff`: the cursor leaves its range by one kind of turn only, a landing on a
  place that was aimed at in a longer range (`CursorSystem.overtaken_seek_leaves_range`).
* `CursorSystem.range_of_idle`: the range of a cursor when all tasks are done. A refresh may lose a
  publication (`CursorSystem.refresh_loses_course`).
-/

namespace Toolpath

/-! ## Cursors -/

namespace Cursor

/-- The cursor stands in its range. -/
def Within (c : Cursor) : Prop := c.position ≤ c.maximum

instance (c : Cursor) : Decidable c.Within := inferInstanceAs (Decidable (_ ≤ _))

/-- The cursor after it was given a range, whether it took it or not. -/
def sized (c : Cursor) (maximum generation : Nat) : Cursor := (c.setRange? maximum generation).getD c

variable {c : Cursor} {m g : Nat}

theorem sized_of_le (h : c.generation ≤ g) :
    c.sized m g = { c with maximum := m, position := 0, generation := g } := by
  rw [sized, setRange?_of_le h, Option.getD_some]

/-- An older range is not taken. -/
theorem sized_of_lt (h : g < c.generation) : c.sized m g = c := by
  rw [sized, setRange?, if_pos h, Option.getD_none]

theorem Within.sized (h : c.Within) : (c.sized m g).Within := by
  by_cases hg : c.generation ≤ g
  · rw [sized_of_le hg]
    exact Nat.zero_le m
  · rw [sized_of_lt (Nat.not_le.mp hg)]
    exact h

theorem generation_le_sized : c.generation ≤ (c.sized m g).generation := by
  by_cases hg : c.generation ≤ g
  · rw [sized_of_le hg]
    exact hg
  · exact Nat.le_of_eq (congrArg generation (sized_of_lt (Nat.not_le.mp hg)).symm)

end Cursor

/-- Where a party wants a cursor to go. -/
inductive Aim where
  | forward
  | back
  | seek (index : Nat)
deriving DecidableEq, Repr

namespace Aim

/-- The place that is aimed at, if the cursor can go there. -/
def place? (c : Cursor) : Aim → Option Nat
  | .forward => c.next?
  | .back => c.previous?
  | .seek index => if index > c.maximum then none else some index

/-- A cursor in its range aims at places in its range. -/
theorem place?_le {c : Cursor} (h : c.Within) {aim : Aim} {place : Nat} (hp : aim.place? c = some place) :
    place ≤ c.maximum := by
  cases aim with
  | forward =>
    simp only [place?, Cursor.next?] at hp
    split at hp <;> cases hp
    assumption
  | back =>
    simp only [place?, Cursor.previous?] at hp
    split at hp <;> cases hp
    exact Nat.le_trans (Nat.sub_le _ 1) h
  | seek index =>
    simp only [place?] at hp
    split at hp <;> cases hp
    exact Nat.not_lt.mp ‹_›

/-- The operation on a session. -/
def perform (tell : Publisher) (id : Nat) : Aim → Step Unit
  | .forward => discard (Step.stepForward tell id)
  | .back => discard (Step.stepBack tell id)
  | .seek index => discard (Step.seek tell id index)

end Aim

/-! ## Tasks -/

/-- What a party is in the middle of. -/
inductive CursorTask where
  /-- A refresh found nothing published, and has yet to ask for the generation. -/
  | undated
  /-- A range is known, to a refresh or from a course that was published; the cursor has yet to take it. -/
  | sized (maximum generation : Nat)
  /-- A place was aimed at; `seen` is the cursor at that time. -/
  | aimed (place : Nat) (seen : Cursor)
  /-- The published course was read. -/
  | holding (place : Nat) (seen : Cursor) (course : Snapshot)
  /-- The move at the place was selected; the cursor has yet to land there. -/
  | selected (place : Nat) (seen : Cursor)

namespace CursorTask

/-- The range of a published course. -/
def ofCourse (course : Snapshot) : CursorTask := .sized course.maxIndex course.generation

/-- A refresh that has read what is published. -/
def ofJob (j : Job) : CursorTask :=
  match j.snapshot with
  | some course => ofCourse course
  | none => .undated

/-- What is left of a task after its next turn. -/
def next? (j : Job) : CursorTask → Option CursorTask
  | .undated => some (.sized 0 j.live)
  | .aimed place seen => j.snapshot.map (.holding place seen)
  | .holding place seen course =>
    match course.index.moveAt j.live place with
    | .ok _ => some (.selected place seen)
    | .error _ => none
  | .sized _ _ | .selected _ _ => none

/-- What the next turn of a task does to the cursor. -/
def moves (c : Cursor) : CursorTask → Cursor
  | .sized maximum generation => c.sized maximum generation
  | .selected place _ => c.land place
  | .undated | .aimed _ _ | .holding _ _ _ => c

/-- The place that a party aims at, with the cursor that it saw. -/
def aim? : CursorTask → Option (Nat × Cursor)
  | .aimed place seen | .holding place seen _ | .selected place seen => some (place, seen)
  | .undated | .sized _ _ => none

/-- A task goes on with the same aim. -/
theorem aim?_next? {j : Job} {e f : CursorTask} (h : e.next? j = some f) (ha : f.aim?.isSome) :
    e.aim? = f.aim? := by
  cases e with
  | undated =>
    cases h
    cases ha
  | sized | selected => cases h
  | aimed place seen =>
    obtain ⟨course, -, rfl⟩ := Option.map_eq_some_iff.mp h
    rfl
  | holding place seen course =>
    simp only [next?] at h
    split at h <;> cases h
    rfl

end CursorTask

/-- A job and a cursor on it, with what the parties are in the middle of. -/
structure CursorSystem where
  system : JobSystem := {}
  cursor : Cursor := {}
  tasks : List CursorTask := []

namespace CursorSystem

/-- A turn of some party. -/
inductive Act where
  /-- A turn on the job. A course that it publishes is on its way to the cursor, which follows. -/
  | turn (turn : Turn)
  /-- A place is aimed at. -/
  | aim (aim : Aim)
  /-- A refresh reads what is published. -/
  | ask
  /-- The next turn of a task. -/
  | proceed (task : Nat)

def job (s : CursorSystem) : Job := s.system.job

/-- One turn. -/
def take (setup : Setup) (s : CursorSystem) : Act → CursorSystem
  | .turn turn =>
    let done := s.system.take setup turn
    { s with system := done.1, tasks := s.tasks ++ done.2.map .ofCourse }
  | .aim aim => { s with tasks := s.tasks ++ ((aim.place? s.cursor).map (.aimed · s.cursor)).toList }
  | .ask => { s with tasks := s.tasks ++ [.ofJob s.job] }
  | .proceed k =>
    match s.tasks[k]? with
    | none => s
    | some task =>
      { s with
        cursor := task.moves s.cursor
        tasks := s.tasks.eraseIdx k ++ (task.next? s.job).toList }

/-- The state after a sequence of turns. -/
def through (setup : Setup) (s : CursorSystem) (acts : List Act) : CursorSystem := acts.foldl (take setup) s

/-- The state after a sequence of turns on a new job and a new cursor. -/
def after (setup : Setup) (acts : List Act) : CursorSystem := through setup {} acts

theorem after_nil (setup : Setup) : after setup [] = {} := rfl

theorem after_concat (setup : Setup) (acts : List Act) (act : Act) :
    after setup (acts ++ [act]) = (after setup acts).take setup act := by
  rw [after, through, List.foldl_append]
  rfl

section Take

variable {setup : Setup} {s : CursorSystem} {k : Nat}

theorem take_proceed_of_none (h : s.tasks[k]? = none) : s.take setup (.proceed k) = s := by
  simp only [take, h]

theorem take_proceed {task : CursorTask} (h : s.tasks[k]? = some task) :
    s.take setup (.proceed k) =
      { s with
        cursor := task.moves s.cursor
        tasks := s.tasks.eraseIdx k ++ (task.next? s.job).toList } := by
  simp only [take, h]

/-- What a turn does to the cursor: nothing, or what the task does whose turn it is. -/
theorem cursor_take (setup : Setup) (s : CursorSystem) (act : Act) :
    (s.take setup act).cursor = s.cursor ∨
      ∃ k task, act = .proceed k ∧ s.tasks[k]? = some task ∧
        (s.take setup act).cursor = task.moves s.cursor := by
  cases act with
  | turn | aim | ask => exact .inl rfl
  | proceed k =>
    cases h : s.tasks[k]? with
    | none => exact .inl (congrArg CursorSystem.cursor (take_proceed_of_none h))
    | some task =>
      rw [take_proceed h]
      exact .inr ⟨k, task, rfl, h, rfl⟩

/-- What the parties aim at after a turn: what they aimed at before, or the place that one has just aimed
at. -/
theorem aim?_of_mem_take {act : Act} {e : CursorTask} (h : e ∈ (s.take setup act).tasks) {place : Nat}
    {seen : Cursor} (ha : e.aim? = some (place, seen)) :
    (∃ f ∈ s.tasks, f.aim? = some (place, seen)) ∨
      seen = s.cursor ∧ ∃ aim : Aim, aim.place? s.cursor = some place := by
  cases act with
  | turn turn =>
    rcases List.mem_append.mp h with h | h
    · exact .inl ⟨e, h, ha⟩
    · obtain ⟨course, -, rfl⟩ := List.mem_map.mp h
      cases ha
  | aim aim =>
    rcases List.mem_append.mp h with h | h
    · exact .inl ⟨e, h, ha⟩
    · obtain ⟨_, hp, rfl⟩ := Option.map_eq_some_iff.mp (Option.mem_toList.mp h)
      cases ha
      exact .inr ⟨rfl, aim, hp⟩
  | ask =>
    rcases List.mem_append.mp h with h | h
    · exact .inl ⟨e, h, ha⟩
    · -- a refresh aims at no place
      rw [List.mem_singleton.mp h, CursorTask.ofJob] at ha
      split at ha <;> cases ha
  | proceed k =>
    cases hk : s.tasks[k]? with
    | none =>
      rw [take_proceed_of_none hk] at h
      exact .inl ⟨e, h, ha⟩
    | some f =>
      rw [take_proceed hk] at h
      rcases List.mem_append.mp h with h | h
      · exact .inl ⟨e, List.mem_of_mem_eraseIdx h, ha⟩
      · have hsame := CursorTask.aim?_next? (Option.mem_toList.mp h) (by rw [ha]; rfl)
        exact .inl ⟨f, List.mem_of_getElem? hk, hsame.trans ha⟩

end Take

/-! ## Tasks that nobody comes between -/

end CursorSystem

/-- Whether a place can be selected. -/
def Job.finds (j : Job) (place : Nat) : Bool :=
  match j.snapshot with
  | some course => (course.index.moveAt j.live place).isOk
  | none => false

namespace Step

/-- A place is selected, and the cursor put there, without anybody listening. -/
theorem landOn_leads {t : Session} {id : Nat} (hid : id < t.cursors.size) (place : Nat) :
    Leads t (landOn (fun _ => pure ()) id place) fun _ u => u.job = t.job ∧
      u.cursor id = if t.job.finds place then (t.cursor id).land place else t.cursor id := by
  simp only [landOn, select, selectWith, leads_bind, leads_get]
  cases hs : t.job.snapshot with
  | none =>
    have hfinds : t.job.finds place = false := by simp only [Job.finds, hs]
    exact leads_pure.mpr (leads_pure.mpr ⟨rfl, by rw [hfinds]; rfl⟩)
  | some course =>
    have hfinds : t.job.finds place = (course.index.moveAt t.job.live place).isOk := by
      simp only [Job.finds, hs]
    dsimp only
    cases hm : course.index.moveAt t.job.live place with
    | error cause => exact leads_pure.mpr (leads_pure.mpr ⟨rfl, by rw [hfinds, hm]; rfl⟩)
    | ok m =>
      simp only [leads_bind, leads_pure, leads_modify]
      refine ⟨rfl, ?_⟩
      rw [Session.cursor_setCursor, if_pos ⟨rfl, hid⟩, hfinds, hm]
      rfl

/-- Going to a place, up to landing there. -/
theorem leads_perform {t : Session} {id : Nat} {tell : Publisher} {aim : Aim} {Q : Unit → Session → Prop} :
    Leads t (aim.perform tell id) Q ↔
      match aim.place? (t.cursor id) with
      | some place => Leads t (landOn tell id place) fun _ => Q ()
      | none => Q () t := by
  cases aim with
  | forward =>
    simp only [Aim.perform, Aim.place?, stepForward, leads_discard, leads_bind, leads_get]
    cases (t.cursor id).next? <;> simp only [landOn?, leads_bind, leads_pure]
  | back =>
    simp only [Aim.perform, Aim.place?, stepBack, leads_discard, leads_bind, leads_get]
    cases (t.cursor id).previous? <;> simp only [landOn?, leads_bind, leads_pure]
  | seek index =>
    simp only [Aim.perform, Aim.place?, seek, leads_discard, leads_bind, leads_get]
    by_cases h : index > (t.cursor id).maximum
    · simp only [if_pos h, leads_pure]
    · simp only [if_neg h]

/-- A cursor is sized to what is published, without anybody listening. -/
theorem refresh_leads_sized {t : Session} {id : Nat} (hid : id < t.cursors.size) :
    Leads t (refresh (fun _ => pure ()) id) fun _ u => u.job = t.job ∧
      u.cursor id = match t.job.snapshot with
        | some course => (t.cursor id).sized course.maxIndex course.generation
        | none => (t.cursor id).sized 0 t.job.live := by
  have hset (m g : Nat) : Leads t (setRange (fun _ => pure ()) id m g) fun _ u =>
      u.job = t.job ∧ u.cursor id = (t.cursor id).sized m g := by
    simp only [setRange, leads_bind, leads_get]
    rw [Cursor.sized]
    cases (t.cursor id).setRange? m g with
    | none => exact leads_pure.mpr ⟨rfl, rfl⟩
    | some c =>
      simp only [leads_bind, leads_modify, leads_pure]
      exact ⟨rfl, by rw [Session.cursor_setCursor, if_pos ⟨rfl, hid⟩]; rfl⟩
  simp only [refresh, leads_bind, leads_get, leads_pure]
  cases t.job.snapshot with
  | none => exact hset 0 t.job.live
  | some course => exact hset course.maxIndex course.generation

end Step

namespace CursorSystem

section Alone

open Step

variable {setup : Setup} {s : CursorSystem} {t : Session} {id : Nat}

/-- The last task takes its next turn. -/
theorem take_last {tasks : List CursorTask} {e : CursorTask} (h : s.tasks = tasks ++ [e]) :
    s.take setup (.proceed tasks.length) =
      { s with cursor := e.moves s.cursor, tasks := tasks ++ (e.next? s.job).toList } := by
  have hk : s.tasks[tasks.length]? = some e := by
    rw [h]
    simp
  rw [take_proceed hk, h, List.eraseIdx_append_of_length_le (Nat.le_refl _)]
  simp

/-- Without a last task there is no turn to take. -/
theorem take_idle (w : JobSystem) (c : Cursor) (tasks : List CursorTask) :
    take setup ⟨w, c, tasks⟩ (.proceed tasks.length) = ⟨w, c, tasks⟩ :=
  take_proceed_of_none (List.getElem?_eq_none (Nat.le_refl _))

/-- A party that has aimed at a place goes there. -/
theorem cursor_through_aimed (w : JobSystem) (c : Cursor) (tasks : List CursorTask) (place : Nat)
    (seen : Cursor) :
    (through setup ⟨w, c, tasks ++ [.aimed place seen]⟩
        [.proceed tasks.length, .proceed tasks.length, .proceed tasks.length]).cursor =
      if w.job.finds place then c.land place else c := by
  simp only [through, List.foldl_cons, List.foldl_nil]
  cases hs : w.job.snapshot with
  | none =>
    have hlook : take setup ⟨w, c, tasks ++ [.aimed place seen]⟩ (.proceed tasks.length) =
        ⟨w, c, tasks⟩ := by
      rw [take_last rfl]
      simp [CursorTask.next?, CursorTask.moves, job, hs]
    have hfinds : w.job.finds place = false := by simp only [Job.finds, hs]
    rw [hlook, take_idle, take_idle, hfinds]
    rfl
  | some course =>
    have hlook : take setup ⟨w, c, tasks ++ [.aimed place seen]⟩ (.proceed tasks.length) =
        ⟨w, c, tasks ++ [.holding place seen course]⟩ := by
      rw [take_last rfl]
      simp [CursorTask.next?, CursorTask.moves, job, hs]
    have hfinds : w.job.finds place = (course.index.moveAt w.job.live place).isOk := by
      simp only [Job.finds, hs]
    rw [hlook, hfinds]
    cases hm : course.index.moveAt w.job.live place with
    | error cause =>
      have hfind : take setup ⟨w, c, tasks ++ [.holding place seen course]⟩
          (.proceed tasks.length) = ⟨w, c, tasks⟩ := by
        rw [take_last rfl]
        simp [CursorTask.next?, CursorTask.moves, job, hm]
      rw [hfind, take_idle]
      rfl
    | ok m =>
      have hfind : take setup ⟨w, c, tasks ++ [.holding place seen course]⟩
          (.proceed tasks.length) = ⟨w, c, tasks ++ [.selected place seen]⟩ := by
        rw [take_last rfl]
        simp [CursorTask.next?, CursorTask.moves, job, hm]
      rw [hfind, take_last rfl]
      rfl

/-- **A party that is alone.** Going to a place does to the cursor what the operation does to it. -/
theorem perform_eq (s : CursorSystem) (aim : Aim) (hid : id < t.cursors.size) (hj : t.job = s.job)
    (hc : t.cursor id = s.cursor) :
    Leads t (aim.perform (fun _ => pure ()) id) fun _ u => u.job = t.job ∧
      u.cursor id = (s.through setup [.aim aim, .proceed s.tasks.length,
        .proceed s.tasks.length, .proceed s.tasks.length]).cursor := by
  obtain ⟨w, c, tasks⟩ := s
  subst hc
  rw [leads_perform]
  cases hp : aim.place? (t.cursor id) with
  | none =>
    have haim : take setup ⟨w, t.cursor id, tasks⟩ (.aim aim) = ⟨w, t.cursor id, tasks⟩ := by
      simp [take, hp]
    simp only [through, List.foldl_cons, List.foldl_nil, haim, take_idle, and_self]
  | some place =>
    have haim : take setup ⟨w, t.cursor id, tasks⟩ (.aim aim) =
        ⟨w, t.cursor id, tasks ++ [.aimed place (t.cursor id)]⟩ := by
      simp [take, hp]
    refine (landOn_leads hid place).mono fun _ u ⟨hu, hland⟩ => ⟨hu, ?_⟩
    rw [hland, hj, through, List.foldl_cons, haim]
    exact (cursor_through_aimed w (t.cursor id) tasks place (t.cursor id)).symm

/-- The same for a refresh. -/
theorem refresh_eq (s : CursorSystem) (hid : id < t.cursors.size) (hj : t.job = s.job)
    (hc : t.cursor id = s.cursor) :
    Leads t (refresh (fun _ => pure ()) id) fun _ u => u.job = t.job ∧
      u.cursor id = (s.through setup
        [.ask, .proceed s.tasks.length, .proceed s.tasks.length]).cursor := by
  obtain ⟨w, c, tasks⟩ := s
  subst hc
  refine (refresh_leads_sized hid).mono fun _ u ⟨hu, hsized⟩ => ⟨hu, ?_⟩
  have hj : t.job = w.job := hj
  rw [hsized, hj]
  simp only [through, List.foldl_cons, List.foldl_nil]
  cases hs : w.job.snapshot with
  | some course =>
    have hask : take setup ⟨w, t.cursor id, tasks⟩ .ask =
        ⟨w, t.cursor id, tasks ++ [.ofCourse course]⟩ := by
      simp [take, job, CursorTask.ofJob, hs]
    have hsize : take setup ⟨w, t.cursor id, tasks ++ [.ofCourse course]⟩ (.proceed tasks.length) =
        ⟨w, (t.cursor id).sized course.maxIndex course.generation, tasks⟩ := by
      rw [take_last rfl]
      simp [CursorTask.ofCourse, CursorTask.next?, CursorTask.moves]
    rw [hask, hsize, take_idle]
  | none =>
    have hask : take setup ⟨w, t.cursor id, tasks⟩ .ask =
        ⟨w, t.cursor id, tasks ++ [.undated]⟩ := by
      simp [take, job, CursorTask.ofJob, hs]
    have hdate : take setup ⟨w, t.cursor id, tasks ++ [.undated]⟩ (.proceed tasks.length) =
        ⟨w, t.cursor id, tasks ++ [.sized 0 w.job.live]⟩ := by
      rw [take_last rfl]
      rfl
    rw [hask, hdate, take_last rfl]
    rfl

end Alone

end CursorSystem

/-! ## Leaving the range -/

namespace CursorTask

theorem generation_le_moves (c : Cursor) (e : CursorTask) : c.generation ≤ (e.moves c).generation := by
  cases e with
  | sized => exact Cursor.generation_le_sized
  | undated | aimed | holding | selected => exact Nat.le_refl _

/-- The range of the cursor after a turn: the one it had, or one that is not older. -/
theorem moves_range (c : Cursor) (e : CursorTask) :
    ((e.moves c).maximum = c.maximum ∧ (e.moves c).generation = c.generation) ∨
      ∃ m g, e = .sized m g ∧ c.generation ≤ g ∧ (e.moves c).maximum = m ∧ (e.moves c).generation = g := by
  cases e with
  | undated | aimed | holding | selected => exact .inl ⟨rfl, rfl⟩
  | sized m g =>
    by_cases hg : c.generation ≤ g
    · refine .inr ⟨m, g, rfl, hg, ?_⟩
      rw [moves, Cursor.sized_of_le hg]
      exact ⟨rfl, rfl⟩
    · refine .inl ?_
      rw [moves, Cursor.sized_of_lt (Nat.not_le.mp hg)]
      exact ⟨rfl, rfl⟩

/-- Only a refresh that found nothing published comes to know of a range later. -/
theorem next?_eq_sized {j : Job} {e : CursorTask} {m g : Nat} (h : e.next? j = some (.sized m g)) :
    m = 0 ∧ g = j.live := by
  cases e with
  | undated =>
    cases h
    exact ⟨rfl, rfl⟩
  | sized | selected => cases h
  | aimed place seen =>
    obtain ⟨course, -, he⟩ := Option.map_eq_some_iff.mp h
    cases he
  | holding place seen course =>
    simp only [next?] at h
    split at h <;> cases h

/-- The place that a party aims at was in the range of the cursor that it saw. The present cursor `c` may
have another range, but not an older one. -/
def TargetInRange (c : Cursor) (e : CursorTask) : Prop :=
  ∀ place seen, e.aim? = some (place, seen) → place ≤ seen.maximum ∧ seen.generation ≤ c.generation

end CursorTask

namespace CursorSystem

/-- A landing on a place beyond the range of the cursor. The party aimed at it when the cursor had a longer
range. -/
def Overtaken (s : CursorSystem) (act : Act) : Prop :=
  ∃ k place seen, act = .proceed k ∧ s.tasks[k]? = some (.selected place seen) ∧
    s.cursor.maximum < place ∧ place ≤ seen.maximum ∧ seen.generation ≤ s.cursor.generation

section Within

variable {setup : Setup} {s : CursorSystem} {act : Act}

/-- One turn keeps what is known of the tasks, as long as the cursor stands in its range. -/
theorem targetInRange_take (hw : s.cursor.Within) (h : ∀ e ∈ s.tasks, e.TargetInRange s.cursor) :
    ∀ e ∈ (s.take setup act).tasks, e.TargetInRange (s.take setup act).cursor := by
  have hle : s.cursor.generation ≤ (s.take setup act).cursor.generation := by
    rcases cursor_take setup s act with hc | ⟨k, task, -, -, hc⟩
    · exact Nat.le_of_eq (congrArg Cursor.generation hc.symm)
    · rw [hc]
      exact task.generation_le_moves s.cursor
  intro e he place seen ha
  rcases aim?_of_mem_take he ha with ⟨f, hf, haim⟩ | ⟨rfl, aim, hp⟩
  · obtain ⟨hplace, hg⟩ := h f hf place seen haim
    exact ⟨hplace, Nat.le_trans hg hle⟩
  · exact ⟨Aim.place?_le hw hp, hle⟩

/-- A landing that was overtaken puts the cursor beyond its range. -/
theorem Overtaken.not_within (h : s.Overtaken act) : ¬ (s.take setup act).cursor.Within := by
  obtain ⟨k, place, seen, rfl, hk, hlt, -⟩ := h
  rw [take_proceed hk]
  exact Nat.not_le.mpr hlt

/-- No other turn does. -/
theorem within_take (hw : s.cursor.Within) (h : ∀ e ∈ s.tasks, e.TargetInRange s.cursor)
    (hnot : ¬ s.Overtaken act) : (s.take setup act).cursor.Within := by
  rcases cursor_take setup s act with hc | ⟨k, task, rfl, hk, hc⟩ <;> rw [hc]
  · exact hw
  · cases task with
    | undated | aimed | holding => exact hw
    | sized => exact hw.sized
    | selected place seen =>
      obtain ⟨hplace, hg⟩ := h _ (List.mem_of_getElem? hk) place seen rfl
      exact Nat.not_lt.mp fun hlt => hnot ⟨k, place, seen, rfl, hk, hlt, hplace, hg⟩

end Within

/-- What a party saw when it aimed at a place was the cursor at that time. -/
theorem seen_earlier (setup : Setup) (acts : List Act) :
    ∀ e ∈ (after setup acts).tasks, ∀ place seen, e.aim? = some (place, seen) →
      ∃ earlier, earlier <+: acts ∧ (after setup earlier).cursor = seen := by
  induction acts using List.reverseRecOn with
  | nil =>
    intro e he
    exact absurd he List.not_mem_nil
  | append_singleton acts act ih =>
    intro e he place seen ha
    rw [after_concat] at he
    rcases aim?_of_mem_take he ha with ⟨f, hf, haim⟩ | ⟨rfl, -⟩
    · obtain ⟨earlier, hp, hseen⟩ := ih f hf place seen haim
      exact ⟨earlier, hp.trans (List.prefix_append acts [act]), hseen⟩
    · exact ⟨acts, List.prefix_append acts [act], rfl⟩

/-- The cursor stands in its range all the time, if no landing is overtaken. The induction carries what is
known of the places that parties aim at. -/
theorem within_of_not_overtaken {setup : Setup} {acts : List Act}
    (h : ∀ earlier act, earlier ++ [act] <+: acts → ¬ (after setup earlier).Overtaken act) :
    (∀ earlier, earlier <+: acts → (after setup earlier).cursor.Within) ∧
      ∀ e ∈ (after setup acts).tasks, e.TargetInRange (after setup acts).cursor := by
  induction acts using List.reverseRecOn with
  | nil =>
    refine ⟨fun earlier hp => ?_, fun e he => absurd he List.not_mem_nil⟩
    rw [List.prefix_nil.mp hp, after_nil]
    exact Nat.le_refl 0
  | append_singleton acts act ih =>
    obtain ⟨hwithin, hsighted⟩ := ih fun earlier act hp => h earlier act (hp.trans (List.prefix_append _ _))
    have hlast := hwithin acts (List.prefix_refl acts)
    rw [after_concat]
    refine ⟨fun earlier hp => ?_, targetInRange_take hlast hsighted⟩
    rcases List.prefix_concat_iff.mp hp with rfl | hp
    · rw [after_concat]
      exact within_take hlast hsighted (h acts act (List.prefix_refl _))
    · exact hwithin earlier hp

/-- **When a cursor stays in its range.** Whatever turns the parties take, the cursor stands in its range all
the time exactly if no landing is overtaken: a party that aimed at a place and selected its move lands there
even if the cursor has taken a shorter range in the meantime. What it saw when it aimed is what the cursor
was at some earlier time. -/
theorem within_throughout_iff (setup : Setup) (acts : List Act) :
    ((∀ earlier, earlier <+: acts → (after setup earlier).cursor.Within) ↔
      ∀ earlier act, earlier ++ [act] <+: acts → ¬ (after setup earlier).Overtaken act) ∧
    ∀ e ∈ (after setup acts).tasks, ∀ place seen, e.aim? = some (place, seen) →
      ∃ earlier, earlier <+: acts ∧ (after setup earlier).cursor = seen := by
  refine ⟨⟨?_, fun h => (within_of_not_overtaken h).1⟩, seen_earlier setup acts⟩
  intro h earlier act hp hover
  have hthen := h _ hp
  rw [after_concat] at hthen
  exact hover.not_within hthen

/-- A seek selects the last of three moves. Before it lands there, a program of one move is published and the
cursor is rewound to the range of it. -/
theorem overtaken_seek_leaves_range :
    let first : Run := ⟨1, ⟨"a.nc", "G0 X1\nG0 X2\nG0 X3"⟩⟩
    let second : Run := ⟨2, ⟨"b.nc", "G0 X9"⟩⟩
    let load (run : Run) : List Act := [.turn (.begin run.program), .turn (.start run),
      .turn (.finish run (MoveId.mint run.generation) fun _ => false)]
    let acts : List Act := load first ++ [.proceed 0, .aim (.seek 2), .proceed 0, .proceed 0] ++
      load second ++ [.proceed 1]
    (after {} acts).cursor = ⟨0, 0, false, 2⟩ ∧
      (after {} (acts ++ [.proceed 0])).cursor = ⟨2, 0, false, 2⟩ ∧
      ¬ (after {} (acts ++ [.proceed 0])).cursor.Within := by
  decide +kernel

/-- The same on a session, where a listener loads the second program while the seek tells of its
selection. -/
theorem seek_leaves_range_during_load :
    Step.Leads { setup := {} } (Operation.performAll
      [.load ⟨"a.nc", "G0 X1\nG0 X2\nG0 X3"⟩, .newCursor, .follow 0,
        .arm ⟨.moveSelected, none⟩ (.load ⟨"b.nc", "G0 X9"⟩), .seek 0 2])
      fun _ t => t.cursor 0 = ⟨2, 0, false, 2⟩ ∧ ¬ (t.cursor 0).Within := by
  decide +kernel

end CursorSystem

/-! ## Refreshing -/

/-- A range that may be on its way to a cursor: it is not newer than the job, and if it is as new, it is that
of the published course or an empty one. -/
def Job.Grants (j : Job) (maximum generation : Nat) : Prop :=
  generation ≤ j.generation ∧ (generation = j.generation →
    maximum = 0 ∨ ∃ course, j.snapshot = some course ∧ maximum = course.maxIndex)

namespace JobSystem

variable {w v : JobSystem} {out : List Snapshot}

/-- A published course stays until a new generation is counted. -/
theorem Change.shown (hc : w.Change v out) (hw : w.Sound) (hg : v.job.generation = w.job.generation)
    {course : Snapshot} (hs : w.job.snapshot = some course) : v.job.snapshot = some course := by
  cases hc with
  | begin | reset | failUnreadable => exact absurd hg (Nat.succ_ne_self _)
  | publish run timeline hwork hrun hfree =>
    -- a run that works has nothing published
    have hfits := hw.fits
    rw [Job.Fits, (hw.working run hwork hrun.symm).1] at hfits
    rw [hfits.2.2.2] at hs
    cases hs
  | nothing | discard | start | drop | fail | cancel => exact hs

theorem Change.grants {m g : Nat} (hc : w.Change v out) (hw : w.Sound) (h : w.job.Grants m g) :
    v.job.Grants m g := by
  refine ⟨Nat.le_trans h.1 hc.generation_le, fun hg => ?_⟩
  have hsame : v.job.generation = w.job.generation :=
    Nat.le_antisymm (hg ▸ h.1) hc.generation_le
  rcases h.2 (hg.trans hsame) with hm | ⟨course, hs, hm⟩
  · exact .inl hm
  · exact .inr ⟨course, hc.shown hw hsame hs, hm⟩

theorem Sound.generation_of_shown (hw : w.Sound) {course : Snapshot} (hs : w.job.snapshot = some course) :
    course.generation = w.job.generation := by
  rw [((hw.fits.coherent hw.live).snapshot course hs).1, hw.live]

theorem Sound.grants_shown (hw : w.Sound) {course : Snapshot} (hs : w.job.snapshot = some course) :
    w.job.Grants course.maxIndex course.generation :=
  ⟨Nat.le_of_eq (hw.generation_of_shown hs), fun _ => .inr ⟨course, hs, rfl⟩⟩

theorem Sound.grants_empty (hw : w.Sound) : w.job.Grants 0 w.job.live :=
  ⟨Nat.le_of_eq hw.live, fun _ => .inl rfl⟩

end JobSystem

namespace CursorSystem

/-- The ranges of the cursor and of the tasks may be on their way, and the range of the published course is,
unless the cursor has one of that generation. -/
structure RangesGranted (s : CursorSystem) : Prop where
  sound : s.system.Sound
  cursor : s.job.Grants s.cursor.maximum s.cursor.generation
  tasks : ∀ m g, .sized m g ∈ s.tasks → s.job.Grants m g
  follows : ∀ course, s.job.snapshot = some course →
    s.cursor.generation = course.generation ∨ .ofCourse course ∈ s.tasks

section RangesGranted

variable {setup : Setup} {s : CursorSystem}

theorem rangesGranted_empty : RangesGranted {} where
  sound := JobSystem.sound_empty
  cursor := ⟨Nat.le_refl 0, fun _ => .inl rfl⟩
  tasks _ _ h := by cases h
  follows _ h := by cases h

theorem RangesGranted.turn (h : s.RangesGranted) (turn : Turn) : (s.take setup (.turn turn)).RangesGranted := by
  have hc := s.system.take_change setup turn
  have hsound := hc.sound h.sound
  refine ⟨hsound, hc.grants h.sound h.cursor, fun m g hm => ?_, fun course hs => ?_⟩
  · rcases List.mem_append.mp hm with hm | hm
    · exact hc.grants h.sound (h.tasks m g hm)
    · obtain ⟨course, hout, he⟩ := List.mem_map.mp hm
      cases he
      exact hsound.grants_shown ((hc.snapshot course).1 hout)
  · rcases (hc.snapshot course).2 hs with hs | hout
    · exact (h.follows course hs).imp_right (List.mem_append_left _)
    · exact .inr (List.mem_append_right _ (List.mem_map_of_mem hout))

/-- Tasks that are added may bring ranges. -/
theorem RangesGranted.add (h : s.RangesGranted) {tasks : List CursorTask}
    (hadd : ∀ m g, .sized m g ∈ tasks → s.job.Grants m g) :
    RangesGranted { s with tasks := s.tasks ++ tasks } where
  sound := h.sound
  cursor := h.cursor
  tasks m g hm := (List.mem_append.mp hm).elim (h.tasks m g) (hadd m g)
  follows course hs := (h.follows course hs).imp_right (List.mem_append_left _)

/-- A task takes its turn. -/
theorem RangesGranted.proceed (h : s.RangesGranted) (k : Nat) : (s.take setup (.proceed k)).RangesGranted := by
  cases hk : s.tasks[k]? with
  | none =>
    rw [take_proceed_of_none hk]
    exact h
  | some e =>
    rw [take_proceed hk]
    have hmem : e ∈ s.tasks := List.mem_of_getElem? hk
    refine ⟨h.sound, ?_, fun m g hm => ?_, fun course hs => ?_⟩
    · rcases e.moves_range s.cursor with ⟨hm, hg⟩ | ⟨m, g, rfl, -, hm, hg⟩ <;> rw [hm, hg]
      · exact h.cursor
      · exact h.tasks m g hmem
    · rcases List.mem_append.mp hm with hm | hm
      · exact h.tasks m g (List.mem_of_mem_eraseIdx hm)
      · obtain ⟨rfl, rfl⟩ := CursorTask.next?_eq_sized (Option.mem_toList.mp hm)
        exact h.sound.grants_empty
    · have hcourse : course.generation = s.job.generation := h.sound.generation_of_shown hs
      -- a cursor that takes a range of the newest generation, or newer, has the newest one
      have hnewest : course.generation ≤ (e.moves s.cursor).generation →
          (e.moves s.cursor).generation = course.generation := by
        intro hle
        refine Nat.le_antisymm ?_ hle
        rcases e.moves_range s.cursor with ⟨-, hg⟩ | ⟨m, g, rfl, -, -, hg⟩ <;> rw [hg, hcourse]
        · exact h.cursor.1
        · exact (h.tasks m g hmem).1
      rcases h.follows course hs with hg | hfollow
      · exact .inl (hnewest (hg ▸ e.generation_le_moves s.cursor))
      · obtain ⟨i, hi⟩ := List.getElem?_of_mem hfollow
        by_cases hik : i = k
        · subst hik
          obtain rfl := Option.some.inj (hk.symm.trans hi)
          have hle : s.cursor.generation ≤ course.generation := hcourse ▸ h.cursor.1
          refine .inl (hnewest (Nat.le_of_eq ?_))
          rw [CursorTask.ofCourse, CursorTask.moves, Cursor.sized_of_le hle]
        · exact .inr (List.mem_append_left _ (List.mem_eraseIdx_iff_getElem?.mpr ⟨i, hik, hi⟩))

theorem RangesGranted.take (h : s.RangesGranted) (act : Act) : (s.take setup act).RangesGranted := by
  cases act with
  | turn turn => exact h.turn turn
  | aim aim =>
    refine h.add fun m g hm => ?_
    obtain ⟨place, -, he⟩ := Option.map_eq_some_iff.mp (Option.mem_toList.mp hm)
    cases he
  | ask =>
    refine h.add fun m g hm => ?_
    have he := List.mem_singleton.mp hm
    unfold CursorTask.ofJob at he
    split at he
    · rename_i course hs
      cases he
      exact h.sound.grants_shown hs
    · cases he
  | proceed k => exact h.proceed k

theorem after_rangesGranted (setup : Setup) (acts : List Act) : (after setup acts).RangesGranted := by
  induction acts using List.reverseRecOn with
  | nil => exact rangesGranted_empty
  | append_singleton acts act ih =>
    rw [after_concat]
    exact ih.take act

end RangesGranted

/-- **The range when all is done.** While a course is published and no party is in the middle of anything, the
cursor has a range of that course's generation: its own, or an empty one that a refresh left. -/
theorem range_of_idle (setup : Setup) (acts : List Act) (hidle : (after setup acts).tasks = [])
    {course : Snapshot} (hs : (after setup acts).job.snapshot = some course) :
    (after setup acts).cursor.generation = course.generation ∧
      ((after setup acts).cursor.maximum = course.maxIndex ∨ (after setup acts).cursor.maximum = 0) := by
  have h := after_rangesGranted setup acts
  have hg : (after setup acts).cursor.generation = course.generation := by
    refine (h.follows course hs).resolve_right fun hfollow => ?_
    rw [hidle] at hfollow
    cases hfollow
  refine ⟨hg, ?_⟩
  rcases h.cursor.2 (hg.trans (h.sound.generation_of_shown hs)) with hm | ⟨shown, hshown, hm⟩
  · exact .inr hm
  · cases hs.symm.trans hshown
    exact .inl hm

/-- A refresh finds nothing published. Before it asks for the generation, a course of two moves is published
under it and the cursor takes its range; the refresh then gives the cursor an empty one. -/
theorem refresh_loses_course :
    let run : Run := ⟨1, ⟨"a.nc", "G0 X1\nG0 X2"⟩⟩
    let acts : List Act := [.turn (.begin run.program), .ask, .turn (.start run),
      .turn (.finish run (MoveId.mint 1) fun _ => false), .proceed 1, .proceed 0, .proceed 0]
    (after {} acts).tasks.isEmpty = true ∧ (after {} acts).job.phase = .ready ∧
      (after {} acts).job.snapshot.map (fun course => (course.generation, course.maxIndex)) = some (1, 1) ∧
      (after {} acts).cursor = ⟨0, 0, false, 1⟩ := by
  decide +kernel

end CursorSystem

end Toolpath
