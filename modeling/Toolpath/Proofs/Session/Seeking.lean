import Mathlib.Control.Monad.Basic
import Toolpath.Proofs.Session.InStep
import Toolpath.Proofs.Session.NestedOrder

/-!
# Seeking and selecting

`Playback.seek` checks a place against the range of the cursor before it selects the place;
`Job.select_index` checks it against the course. A cursor in step has the range of the course, but an
empty course and one of a single move give the same range.

* `Job.Displays`: a job shows a course and its tables answer for it. A ready job does, whatever turns led to
  it (`JobSystem.after_displays`).
* `Step.KeepsCursors`: a step neither adds nor removes cursors, even if it is broken off.
* `Displays.select_of_le`, `Displays.select_of_lt`: what selecting a place comes to.
* `Session.seek_agrees_iff`: seeking answers what selecting answers unless the course is empty.
-/

namespace Toolpath

/-! ## Jobs that show a course -/

/-- What a job shows is the course of its program. -/
def Job.Charted (setup : Setup) (j : Job) : Prop :=
  ∀ course, j.snapshot = some course → ∃ mint, course.timeline = .ofLines setup mint course.program.lines

namespace JobSystem

theorem take_charted {setup : Setup} {w : JobSystem} (h : w.job.Charted setup) (turn : Turn) :
    (w.take setup turn).1.job.Charted setup := by
  intro course hshown
  rcases ((take_change setup w turn).snapshot course).2 hshown with hbefore | hnew
  · exact h course hbefore
  · cases turn with
    | finish run mint seen =>
      by_cases hw : run ∈ w.working
      · obtain ⟨-, -, timeline, hrun, rfl⟩ := (mem_finish_iff hw course).mp hnew
        exact ⟨mint, Timeline.run_ok hrun⟩
      · rw [take, if_neg hw] at hnew
        cases hnew
    | start run =>
      rw [take] at hnew
      split at hnew <;> cases hnew
    | begin | cancel | reset | failUnreadable => cases hnew

theorem through_charted {setup : Setup} {w : JobSystem} (h : w.job.Charted setup) (turns : List Turn) :
    (w.through setup turns).job.Charted setup := by
  induction turns generalizing w with
  | nil => exact h
  | cons turn turns ih =>
    rw [through_cons]
    exact ih (take_charted h turn)

end JobSystem

/-- A job shows a course, and its tables answer for it. -/
structure Job.Displays (j : Job) (course : Snapshot) : Prop where
  shown : j.snapshot = some course
  live : j.live = course.index.generation
  table : course.index.moves = course.moves.toArray
  /-- A move knows its place. -/
  index : ∀ i (hi : i < course.moves.length), course.moves[i].index = i

/-- Whatever turns have led to a ready job, it shows a course. -/
theorem JobSystem.after_displays (setup : Setup) (turns : List Turn)
    (hready : (after setup turns).job.phase = .ready) :
    ∃ course, (after setup turns).job.Displays course := by
  have hsound := after_sound setup turns
  have hfits := hsound.fits
  simp only [Job.Fits, hready] at hfits
  obtain ⟨-, -, program, timeline, -, hshown⟩ := hfits
  have hempty : ({} : JobSystem).job.Charted setup := by
    intro course h
    cases h
  obtain ⟨mint, hcourse⟩ := through_charted hempty turns _ hshown
  refine ⟨_, hshown, hsound.live, rfl, ?_⟩
  rw [Snapshot.moves, hcourse]
  exact Timeline.ofLines_index setup mint program.lines

/-- The event by which a move of a course is selected. -/
def Snapshot.selected (course : Snapshot) (m : Move) : Event :=
  .selection ⟨course.generation, m.index, m.line, m.id⟩

/-! ## Cursors are neither added nor removed -/

namespace Step

/-- A step leaves as many cursors as it found, whether it comes to its end or is broken off. -/
def KeepsCursors {α : Type} (m : Step α) : Prop := ∀ s, (m.run s).2.cursors.size = s.cursors.size

namespace KeepsCursors

variable {α β : Type}

theorem pure (a : α) : KeepsCursors (pure a) := fun _ => rfl

theorem throw (e : Interrupted) : KeepsCursors (throw e : Step α) := fun _ => rfl

theorem get : KeepsCursors get := fun _ => rfl

theorem modify {f : Session → Session} (hf : ∀ s, (f s).cursors.size = s.cursors.size) :
    KeepsCursors (modify f) := hf

theorem bind {m : Step β} {f : β → Step α} (hm : KeepsCursors m) (hf : ∀ b, KeepsCursors (f b)) :
    KeepsCursors (m >>= f) := by
  intro s
  have hsize := hm s
  match hrun : m.run s with
  | (.ok b, t) =>
    rw [hrun] at hsize
    rw [run_bind_ok hrun]
    exact (hf b t).trans hsize
  | (.error e, t) =>
    rw [hrun] at hsize
    rw [run_bind_error hrun]
    exact hsize

theorem discard {m : Step α} (hm : KeepsCursors m) : KeepsCursors (discard m) :=
  bind hm fun _ => pure _

theorem forM {f : β → Step PUnit} (hf : ∀ x, KeepsCursors (f x)) (xs : List β) :
    KeepsCursors (xs.forM f) := by
  induction xs with
  | nil => exact pure PUnit.unit
  | cons x xs ih => exact bind (hf x) fun _ => ih

end KeepsCursors

section Kept

variable {tell : Publisher} (ht : ∀ e, KeepsCursors (tell e))
include ht

theorem inSection_keeps {α : Type} (act : Job → Section α) : KeepsCursors (inSection tell act) := by
  refine .bind .get fun s => .bind (.modify fun _ => rfl) fun _ => ?_
  dsimp only
  cases (act s.job).announces with
  | none => exact .pure _
  | some e => exact .bind (ht e) fun _ => .pure _

theorem load_keeps (program : Program) : KeepsCursors (load tell program) := by
  refine .bind (inSection_keeps ht _) fun run => .bind (inSection_keeps ht _) fun answer => ?_
  cases answer with
  | error cause => exact .pure _
  | ok _ => exact .bind .get fun s => inSection_keeps ht _

theorem reload_keeps : KeepsCursors (reload tell) := by
  refine .bind .get fun s => ?_
  cases s.job.program with
  | none => exact .pure _
  | some program => exact load_keeps ht program

theorem setRange_keeps (id maximum generation : Nat) :
    KeepsCursors (setRange tell id maximum generation) := by
  refine .bind .get fun s => ?_
  cases (s.cursor id).setRange? maximum generation with
  | none => exact .pure _
  | some c => exact .bind (.modify fun t => t.size_setCursor id c) fun _ => ht _

theorem select_keeps (index : Nat) : KeepsCursors (select tell index) := by
  refine .bind .get fun s => ?_
  dsimp only
  cases s.job.snapshot with
  | none => exact .pure _
  | some course =>
    dsimp only
    cases course.index.moveAt s.job.live index with
    | error cause => exact .pure _
    | ok m => exact .bind (ht _) fun _ => .pure _

theorem seek_keeps (id index : Nat) : KeepsCursors (seek tell id index) := by
  refine .bind .get fun s => ?_
  dsimp only
  split
  · exact .pure _
  · refine .bind (select_keeps ht index) fun answer => ?_
    cases answer with
    | error cause => exact .pure _
    | ok m => exact .bind (.modify fun t => t.size_setCursor id _) fun _ => .pure _

theorem perform_keeps (deed : Deed) : KeepsCursors (perform tell deed) := by
  cases deed with
  | cancel => exact .discard (inSection_keeps ht _)
  | reset => exact inSection_keeps ht _
  | reload => exact .discard (reload_keeps ht)
  | load program => exact .discard (load_keeps ht program)
  | abort => exact .throw _
  | pause id =>
    refine .bind .get fun s => ?_
    dsimp only
    split
    · exact .bind (.modify fun t => t.size_setCursor id _) fun _ => ht _
    · exact .pure _
  | toggle id =>
    exact .discard (.bind .get fun s => .bind (.modify fun t => t.size_setCursor id _) fun _ =>
      .bind (ht _) fun _ => .pure _)
  | seek id index => exact .discard (seek_keeps ht id index)

theorem followUp_keeps (id : Nat) (e : Event) : KeepsCursors (followUp tell id e) := by
  unfold followUp
  split
  · exact setRange_keeps ht id _ _
  · exact .pure _

omit ht

theorem deliver_keeps {follow : Nat → Publisher} {act : Deed → Step Unit}
    (hf : ∀ id e, KeepsCursors (follow id e)) (ha : ∀ deed, KeepsCursors (act deed)) (e : Event) :
    KeepsCursors (deliver follow act e) := by
  have hcall (l : Listener) : KeepsCursors (call follow act e l) := by
    cases l with
    | journal book => exact .modify fun _ => rfl
    | follow id => exact hf id e
    | reaction id =>
      refine .bind .get fun s => ?_
      cases s.triggered? id e with
      | none => exact .pure _
      | some found => exact .bind (.modify fun _ => rfl) fun _ => ha found.deed
  exact .bind (.modify fun _ => rfl) fun _ => .bind .get fun s => .bind (.forM hcall _) fun _ =>
    .bind (.modify fun _ => rfl) fun _ => .bind .get fun _ => .pure _

theorem deliverAll_keeps {act : Deed → Step Unit} (ha : ∀ deed, KeepsCursors (act deed)) (e : Event) :
    KeepsCursors (deliverAll act e) := by
  refine deliver_keeps (fun id => followUp_keeps (fun inner => ?_) id) ha e
  exact .discard (deliver_keeps (fun _ _ => .pure _) ha inner)

theorem announce_keeps (n : Nat) (e : Event) : KeepsCursors (announce n e) := by
  induction n generalizing e with
  | zero => exact deliverAll_keeps (fun _ => .pure _) e
  | succ n ih => exact deliverAll_keeps (perform_keeps fun inner => .discard (ih inner)) e

/-- Whatever an event sets off, there are as many cursors as before. -/
theorem tell_keeps (e : Event) : KeepsCursors (Step.tell e) :=
  .discard (.bind .get fun s => announce_keeps s.armed.length e)

end Kept

end Step

/-! ## Selecting and seeking -/

namespace Job.Displays

open Step

variable {s : Session} {course : Snapshot} {i : Nat}

theorem moveAt_of_lt (h : s.job.Displays course) (hi : i < course.moves.length) :
    course.index.moveAt s.job.live i = .ok course.moves[i] := by
  simp only [SelectionIndex.moveAt, SelectionIndex.check_of_eq h.live, h.table, List.getElem?_toArray,
    List.getElem?_eq_getElem hi]
  rfl

theorem moveAt_of_le (h : s.job.Displays course) (hi : course.moves.length ≤ i) :
    course.index.moveAt s.job.live i = .error (.outOfRange i course.moves.length) := by
  simp only [SelectionIndex.moveAt, SelectionIndex.check_of_eq h.live, SelectionIndex.size, h.table,
    List.getElem?_toArray, List.getElem?_eq_none hi, List.size_toArray]
  rfl

/-- A place that the course has is selected by announcing its move. -/
theorem select_of_lt (h : s.job.Displays course) (hi : i < course.moves.length) :
    (select tell i).run s =
      (do
        tell (course.selected course.moves[i])
        return .ok course.moves[i] : Step (Except IndexError Move)).run s := by
  have hget : (get : Step Session).run s = (.ok s, s) := rfl
  simp only [select, selectWith, run_bind_ok hget, h.shown, h.moveAt_of_lt hi, Snapshot.selected]

/-- A place that the course does not have is refused, and nothing happens. -/
theorem select_of_le (h : s.job.Displays course) (hi : course.moves.length ≤ i) :
    (select tell i).run s = (.ok (.error (.outOfRange i course.moves.length)), s) := by
  have hget : (get : Step Session).run s = (.ok s, s) := rfl
  simp only [select, selectWith, run_bind_ok hget, h.shown, h.moveAt_of_le hi]
  rfl

/-- A place that the course has is selected, unless a listener breaks it off. -/
theorem select_cases (h : s.job.Displays course) (hi : i < course.moves.length) :
    (∃ e t, (select tell i).run s = (.error e, t)) ∨
      ∃ t, (select tell i).run s = (.ok (.ok course.moves[i]), t) := by
  rw [h.select_of_lt hi]
  match htell : (tell (course.selected course.moves[i])).run s with
  | (.ok _, t) => exact .inr ⟨t, run_bind_ok htell⟩
  | (.error e, t) => exact .inl ⟨e, t, run_bind_error htell⟩

end Job.Displays

namespace Step

variable {s t : Session} {id i : Nat}

/-- The session after a cursor was put on the place that a step has selected. -/
def landed (id i : Nat) : Except Interrupted (Except IndexError Move) × Session → Session
  | (.ok (.ok _), t) => t.setCursor id ((t.cursor id).land i)
  | (_, t) => t

/-- Going to a place answers what selecting it answers, and puts the cursor there if it was selected. -/
theorem run_landOn (s : Session) (id i : Nat) :
    (landOn tell id i).run s =
      (((select tell i).run s).1, landed id i ((select tell i).run s)) := by
  match hselect : (select tell i).run s with
  | (.ok (.ok m), t) =>
    rw [landOn, run_bind_ok hselect]
    rfl
  | (.ok (.error cause), t) =>
    rw [landOn, run_bind_ok hselect]
    rfl
  | (.error e, t) =>
    rw [landOn, run_bind_error hselect]
    rfl

theorem run_seek_of_le (hi : i ≤ (s.cursor id).maximum) :
    (seek tell id i).run s = (landOn tell id i).run s := by
  have hget : (get : Step Session).run s = (.ok s, s) := rfl
  rw [seek, run_bind_ok hget]
  exact congrFun (congrArg ExceptT.run (if_neg (Nat.not_lt.mpr hi))) s

theorem run_seek_of_lt (hi : (s.cursor id).maximum < i) :
    (seek tell id i).run s = (.ok (.error (.outOfRange i ((s.cursor id).maximum + 1))), s) := by
  have hget : (get : Step Session).run s = (.ok s, s) := rfl
  rw [seek, run_bind_ok hget]
  exact congrFun (congrArg ExceptT.run (if_pos hi)) s

end Step

namespace Session

open Step

/-- A cursor of the session has the range of a course. -/
structure Spans (s : Session) (id : Nat) (course : Snapshot) : Prop where
  present : id < s.cursors.size
  maximum : (s.cursor id).maximum = course.maxIndex
  generation : (s.cursor id).generation = course.generation

section Spans

variable {s : Session} {id i : Nat} {course : Snapshot}

theorem Spans.of_cursor_eq {position : Nat} {playing : Bool} (hid : id < s.cursors.size)
    (hc : s.cursor id = ⟨position, course.maxIndex, playing, course.generation⟩) : s.Spans id course :=
  ⟨hid, by rw [hc], by rw [hc]⟩

/-- The range of an empty course is that of a course of one move. -/
theorem Spans.le_maximum_iff (h : s.Spans id course) :
    i ≤ (s.cursor id).maximum ↔ i < course.moves.length ∨ i = 0 := by
  rw [h.maximum, Snapshot.maxIndex, Snapshot.moveCount]
  omega

theorem Spans.seek_of_lt (h : s.Spans id course) (hi : i < course.moves.length) :
    (seek tell id i).run s =
      (((select tell i).run s).1, landed id i ((select tell i).run s)) := by
  rw [run_seek_of_le (h.le_maximum_iff.mpr (.inl hi)), run_landOn]

/-- A place that the course does not have is refused, and nothing happens. The first place is refused by the
job; any other one by the cursor, which counts one move more than its last place. -/
theorem Spans.seek_of_le (h : s.Spans id course) (hd : s.job.Displays course)
    (hi : course.moves.length ≤ i) :
    (seek tell id i).run s =
      (.ok (.error (.outOfRange i (if i = 0 then 0 else course.maxIndex + 1))), s) := by
  by_cases hzero : i = 0
  · rw [run_seek_of_le (h.le_maximum_iff.mpr (.inr hzero)), run_landOn, hd.select_of_le hi, if_pos hzero]
    have hnone : course.moves.length = 0 := by omega
    rw [hnone]
    rfl
  · have hlt : (s.cursor id).maximum < i := by
      rw [← Nat.not_le, h.le_maximum_iff]
      omega
    rw [run_seek_of_lt hlt, h.maximum, if_neg hzero]

end Spans

/-- Seeking a place next to selecting it. -/
structure SeekAgrees (s : Session) (id i : Nat) (course : Snapshot) : Prop where
  /-- Both answer the same, unless a place behind the first one is sought in an empty course. -/
  same_iff : ((seek tell id i).run s).1 = ((select tell i).run s).1 ↔ course.moves ≠ [] ∨ i = 0
  /-- Then the cursor counts a move that is not there. -/
  miscounted : course.moves = [] → 0 < i →
    (select tell i).run s = (.ok (.error (.outOfRange i 0)), s) ∧
    (seek tell id i).run s = (.ok (.error (.outOfRange i 1)), s)
  /-- A place of the course is found, unless a listener breaks the step off. -/
  found : s.Unbroken → i < course.moves.length → ∃ m, ((seek tell id i).run s).1 = .ok (.ok m)
  /-- Whoever listens, a cursor that has found its place stands there. Nothing else differs from selecting
  the place. -/
  moved : ∀ m, ((seek tell id i).run s).1 = .ok (.ok m) → course.moves[i]? = some m ∧
    (((seek tell id i).run s).2.cursor id).position = i ∧
    ((seek tell id i).run s).2 =
      ((select tell i).run s).2.setCursor id ((((select tell i).run s).2.cursor id).land i)
  /-- Exactly the other places are refused, and then the cursor stays where it is. -/
  refused_iff : (∃ cause, ((seek tell id i).run s).1 = .ok (.error cause)) ↔ course.moves.length ≤ i
  unmoved : ∀ cause, ((seek tell id i).run s).1 = .ok (.error cause) → ((seek tell id i).run s).2 = s

theorem Spans.seekAgrees_of_lt {s : Session} {id i : Nat} {course : Snapshot} (h : s.Spans id course)
    (hd : s.job.Displays course) (hi : i < course.moves.length) : s.SeekAgrees id i course := by
  have hne : course.moves ≠ [] := List.ne_nil_of_length_pos (Nat.zero_lt_of_lt hi)
  have hnot : ¬ course.moves.length ≤ i := Nat.not_le.mpr hi
  have hseek := h.seek_of_lt hi
  rcases hd.select_cases hi with ⟨e, t, hselect⟩ | ⟨t, hselect⟩
  · rw [hselect] at hseek
    refine ⟨?_, fun hnil => absurd hnil hne, fun hs _ => ?_, fun m hm => ?_, ?_, fun cause hc => ?_⟩
    · rw [hseek, hselect]
      exact iff_of_true rfl (.inl hne)
    · obtain ⟨_, _, hrun, -⟩ := accepts_reaches.seek id i s hs
      cases hseek.symm.trans hrun
    · rw [hseek] at hm
      cases hm
    · rw [hseek]
      exact iff_of_false (fun ⟨_, hc⟩ => by cases hc) hnot
    · rw [hseek] at hc
      cases hc
  · have hsize : t.cursors.size = s.cursors.size := by
      have hkept := select_keeps tell_keeps i s
      rwa [hselect] at hkept
    rw [hselect] at hseek
    refine ⟨?_, fun hnil => absurd hnil hne, fun _ _ => ?_, fun m hm => ?_, ?_, fun cause hc => ?_⟩
    · rw [hseek, hselect]
      exact iff_of_true rfl (.inl hne)
    · exact ⟨_, by rw [hseek]⟩
    · rw [hseek] at hm
      cases hm
      refine ⟨List.getElem?_eq_getElem hi, ?_, ?_⟩
      · rw [hseek, landed, cursor_setCursor, if_pos ⟨rfl, hsize ▸ h.present⟩]
        rfl
      · rw [hseek, hselect]
        rfl
    · rw [hseek]
      exact iff_of_false (fun ⟨_, hc⟩ => by cases hc) hnot
    · rw [hseek] at hc
      cases hc

theorem Spans.seekAgrees_of_le {s : Session} {id i : Nat} {course : Snapshot} (h : s.Spans id course)
    (hd : s.job.Displays course) (hi : course.moves.length ≤ i) : s.SeekAgrees id i course := by
  have hseek := h.seek_of_le hd hi
  have hselect := hd.select_of_le hi
  refine ⟨?_, fun hnil hpos => ?_, fun _ hlt => absurd hlt (Nat.not_lt.mpr hi), fun m hm => ?_, ?_,
    fun _ _ => ?_⟩
  · rw [hseek, hselect]
    have hcount : (if i = 0 then 0 else course.maxIndex + 1) = course.moves.length ↔
        course.moves ≠ [] ∨ i = 0 := by
      rw [← List.length_pos_iff, Snapshot.maxIndex, Snapshot.moveCount]
      split <;> omega
    simpa using hcount
  · rw [hselect, hseek, Snapshot.maxIndex, Snapshot.moveCount, hnil, if_neg (Nat.ne_of_gt hpos)]
    exact ⟨rfl, rfl⟩
  · rw [hseek] at hm
    cases hm
  · rw [hseek]
    exact iff_of_true ⟨_, rfl⟩ hi
  · rw [hseek]

/-- **Seeking agrees with selecting, unless the course is empty.** Whatever turns led to a ready job, and
whoever listens. -/
theorem seek_agrees_iff (s : Session) (turns : List Turn)
    (hjob : s.job = (JobSystem.after s.setup turns).job) (hready : s.job.phase = .ready) :
    ∃ course, s.job.snapshot = some course ∧ ∀ id, s.Spans id course → ∀ i, s.SeekAgrees id i course := by
  obtain ⟨course, hd⟩ := JobSystem.after_displays s.setup turns (hjob ▸ hready)
  rw [← hjob] at hd
  refine ⟨course, hd.shown, fun id h i => ?_⟩
  rcases Nat.lt_or_ge i course.moves.length with hi | hi
  · exact h.seekAgrees_of_lt hd hi
  · exact h.seekAgrees_of_le hd hi

/-- On a course of two moves every place is sought as it is selected. -/
theorem seek_agrees_on_two_moves :
    let run : Run := ⟨1, ⟨"a.nc", "G0 X1\nG0 X2"⟩⟩
    let turns : List Turn :=
      [.begin run.program, .start run, .finish run (MoveId.mint 1) fun _ => false]
    let s : Session :=
      { setup := {}, job := (JobSystem.after {} turns).job, cursors := #[⟨0, 1, false, 1⟩] }
    ∀ i, ((seek tell 0 i).run s).1 = ((select tell i).run s).1 := by
  intro run turns s i
  have hready : s.job.phase = .ready := by decide +kernel
  obtain ⟨course, hshown, hall⟩ := seek_agrees_iff s turns rfl hready
  have hmax : s.job.snapshot.map Snapshot.maxIndex = some 1 := by decide +kernel
  have hgeneration : s.job.snapshot.map Snapshot.generation = some 1 := by decide +kernel
  rw [hshown] at hmax hgeneration
  have hspans : s.Spans 0 course :=
    ⟨by decide, (Option.some.inj hmax).symm, (Option.some.inj hgeneration).symm⟩
  refine (hall 0 hspans i).same_iff.mpr (.inl fun hnil => ?_)
  rw [Option.map_some, Snapshot.maxIndex, Snapshot.moveCount, hnil] at hmax
  cases hmax

/-- An empty program is loaded. The sixth place is refused by the job, which counts no move, and by a cursor
in step with it, which counts one. -/
theorem seek_miscounts_empty_course :
    Leads { setup := {} } (do
        discard (load tell ⟨"a.nc", ""⟩)
        let id ← newCursor
        return (id, ← select tell 5, ← seek tell id 5))
      fun r t => t.job.phase = .ready ∧ t.job.snapshot.map Snapshot.moveCount = some 0 ∧
        t.job.snapshot.map Snapshot.maxIndex = some (t.cursor r.1).maximum ∧
        t.job.snapshot.map Snapshot.generation = some (t.cursor r.1).generation ∧
        r.2.1 = .error (.outOfRange 5 0) ∧ r.2.2 = .error (.outOfRange 5 1) := by
  decide +kernel

end Session

end Toolpath
