import Toolpath.CommandLine
import Toolpath.Proofs.Session.Seeking

/-!
# Playing to the end

`Playback.run`. A cursor that plays goes one move on with every tick. In a session at ease nobody else
moves it, so it visits every move that is left, each once and in order, and stops on the last one.

* `Session.ReadyToPlay`: a cursor in step, and nobody else acts. Going on keeps it so (`ReadyToPlay.stepped`).
* `Session.stepped`, `Session.stopped`: the session after a cursor has gone on, and after it has stopped;
  `Session.playedOut`: after it has played to the end.
* `Step.run_playRound_of_lt`, `Step.run_playRound_atEnd`: one tick.
* `playFrom_eq`: all ticks, by induction on the moves that are left.
* `CommandLine.run_play`: what is written when a course is played from its start.
* `Session.playing_visits_rest`: all of this for every ready job.
-/

namespace Toolpath

/-- How a cursor announces that it stops at the end. -/
def Event.finale : List Event := [.playback (.playStateChanged false), .playback .reachedEnd]

namespace Session

variable {s : Session} {id : Nat} {course : Snapshot}

theorem setCursor_setCursor (s : Session) (id : Nat) (c d : Cursor) :
    (s.setCursor id c).setCursor id d = s.setCursor id d := by
  simp [setCursor]

/-- The session after a cursor has gone on to a move. -/
def stepped (s : Session) (id : Nat) (course : Snapshot) (m : Move) : Session :=
  (s.withEvent (course.selected m)).setCursor id ((s.cursor id).land m.index)

/-- The session after a cursor has stopped at the end. -/
def stopped (s : Session) (id : Nat) : Session :=
  (s.withEvents Event.finale).setCursor id { s.cursor id with playing := false }

/-- The session after a cursor has played to the end of a course. -/
def playedOut (s : Session) (id : Nat) (course : Snapshot) : Session :=
  (s.withEvents ((course.moves.drop ((s.cursor id).position + 1)).map course.selected ++ Event.finale)).setCursor
    id { s.cursor id with position := course.maxIndex, playing := false }

theorem cursor_stepped (hid : id < s.cursors.size) (course : Snapshot) (m : Move) :
    (s.stepped id course m).cursor id = (s.cursor id).land m.index := by
  rw [stepped, cursor_setCursor, cursors_withEvent, if_pos ⟨rfl, hid⟩]

/-- A cursor is in step with the course that the job shows, and no reaction is to come. -/
structure ReadyToPlay (s : Session) (id : Nat) (course : Snapshot) : Prop where
  displays : s.job.Displays course
  atEase : s.armed = []
  spans : s.Spans id course

theorem ReadyToPlay.stepped (h : s.ReadyToPlay id course) (m : Move) :
    (s.stepped id course m).ReadyToPlay id course := by
  have hcursor := cursor_stepped h.spans.present course m
  refine ⟨h.displays, h.atEase, ?_, ?_, ?_⟩
  · rw [Session.stepped, size_setCursor, cursors_withEvent]
    exact h.spans.present
  · rw [hcursor]
    exact h.spans.maximum
  · rw [hcursor]
    exact h.spans.generation

/-- At the end of its course a cursor has only to stop. -/
theorem playedOut_of_atEnd (hend : (s.cursor id).position = course.maxIndex) :
    s.playedOut id course = s.stopped id := by
  have hdrop : course.moves.drop ((s.cursor id).position + 1) = [] := by
    refine List.drop_eq_nil_of_le ?_
    rw [hend, Snapshot.maxIndex, Snapshot.moveCount]
    omega
  rw [playedOut, stopped, hdrop, ← hend]
  rfl

/-- A cursor that has gone to some place plays on from there. -/
theorem playedOut_stepped (hid : id < s.cursors.size) {i : Nat} (hi : i < course.moves.length)
    (hindex : course.moves[i].index = i) :
    (s.stepped id course course.moves[i]).playedOut id course =
      (s.withEvents ((course.moves.drop i).map course.selected ++ Event.finale)).setCursor id
        { s.cursor id with position := course.maxIndex, playing := false } := by
  rw [playedOut, cursor_stepped hid, hindex, List.drop_eq_getElem_cons hi]
  rw [stepped, withEvents_setCursor, setCursor_setCursor, List.map_cons, List.cons_append, withEvents_cons]
  rfl

end Session

/-! ## One tick -/

namespace Step

open Session

variable {α : Type} {s : Session} {id i : Nat} {course : Snapshot}

/-- A step of which everything can be shown that holds of one answer and one session comes to these. -/
theorem run_of_leads {m : Step α} {a : α} {t : Session}
    (h : ∀ Q : α → Session → Prop, Q a t → Leads s m Q) : m.run s = (.ok a, t) := by
  obtain ⟨b, u, hrun, rfl, rfl⟩ := h (fun b u => b = a ∧ u = t) ⟨rfl, rfl⟩
  exact hrun

/-- A place is selected while no reaction is to come. -/
theorem leads_select (hd : s.job.Displays course) (hs : s.armed = []) (hi : i < course.moves.length)
    {Q : Except IndexError Move → Session → Prop} :
    Leads s (select tell i) Q ↔ Q (.ok course.moves[i]) (s.withEvent (course.selected course.moves[i])) := by
  rw [Leads, hd.select_of_lt hi, ← Leads, leads_bind, leads_tell hs rfl, leads_pure]

theorem leads_landOn (hd : s.job.Displays course) (hs : s.armed = []) (hi : i < course.moves.length)
    {Q : Except IndexError Move → Session → Prop} :
    Leads s (landOn tell id i) Q ↔ Q (.ok course.moves[i]) (s.stepped id course course.moves[i]) := by
  simp only [landOn, leads_bind, leads_select hd hs hi, leads_modify, leads_pure, cursor_withEvent, stepped,
    hd.index i hi]

/-- A cursor that plays is paused, and the end is announced. -/
theorem leads_stop (hs : s.armed = []) (hp : (s.cursor id).playing = true) {Q : PUnit → Session → Prop} :
    Leads s (do pause tell id; tell (.playback .reachedEnd)) Q ↔ Q ⟨⟩ (s.stopped id) := by
  have hset : (s.setCursor id { s.cursor id with playing := false }).armed = [] := hs
  have hcarries : ((s.setCursor id { s.cursor id with playing := false }).withEvent
      (.playback (.playStateChanged false))).armed = [] := hs
  simp only [pause, leads_bind, leads_get, hp, if_true, leads_modify,
    leads_tell (e := .playback (.playStateChanged false)) hset rfl,
    leads_tell (e := .playback .reachedEnd) hcarries rfl]
  rfl

/-- A tick, up to going on: whether the cursor stops depends on where it stands then. -/
theorem leads_playRound {Q : Round → Session → Prop}
    (hstep : Leads s (stepForward tell id) fun answer t => t.armed = [] ∧ (t.cursor id).playing = true ∧
      ∃ reached, answer = .ok reached ∧
        if (t.cursor id).atEnd then Q (.ended reached.isSome) (t.stopped id)
        else Q (.onward reached.isSome) t) :
    Leads s (playRound tell id) Q := by
  refine leads_bind.mpr (hstep.mono fun answer t ⟨ht, hp, reached, hreached, hq⟩ => ?_)
  subst hreached
  simp only [leads_bind, leads_get]
  split at hq
  · rename_i hend
    rw [if_pos hend]
    have hstop := (leads_stop (Q := fun _ => Q (.ended reached.isSome)) ht hp).mpr hq
    simpa only [leads_bind, leads_pure] using hstop
  · rename_i hend
    rw [if_neg hend]
    exact leads_pure.mpr hq

/-- A tick at the end of the range. -/
theorem run_playRound_atEnd (hs : s.armed = []) (hp : (s.cursor id).playing = true)
    (hend : (s.cursor id).maximum ≤ (s.cursor id).position) :
    (playRound tell id).run s = (.ok (.ended false), s.stopped id) := by
  have hnext : (s.cursor id).next? = none := by
    rw [Cursor.next?, if_neg (Nat.not_lt.mpr hend)]
  have hatEnd : (s.cursor id).atEnd = true := decide_eq_true hend
  refine run_of_leads fun Q hq => leads_playRound ?_
  simp only [stepForward, leads_bind, leads_get, hnext, landOn?, leads_pure]
  exact ⟨hs, hp, none, rfl, by rwa [if_pos hatEnd]⟩

/-- A tick before the end of the range. -/
theorem run_playRound_of_lt (h : s.ReadyToPlay id course) (hp : (s.cursor id).playing = true)
    (hlt : (s.cursor id).position + 1 < course.moves.length) :
    let t := s.stepped id course course.moves[(s.cursor id).position + 1]
    (playRound tell id).run s =
      if (s.cursor id).position + 1 = course.maxIndex then (.ok (.ended true), t.stopped id)
      else (.ok (.onward true), t) := by
  intro t
  have hcursor : t.cursor id = (s.cursor id).land ((s.cursor id).position + 1) := by
    rw [cursor_stepped h.spans.present, h.displays.index _ hlt]
  have hmaximum : (s.cursor id).maximum = course.moves.length - 1 := h.spans.maximum
  have hnext : (s.cursor id).next? = some ((s.cursor id).position + 1) := by
    rw [Cursor.next?, if_pos (by omega)]
  have hatEnd : (t.cursor id).atEnd = true ↔ (s.cursor id).position + 1 = course.maxIndex := by
    rw [hcursor, Cursor.atEnd, Cursor.land, decide_eq_true_iff, ← h.spans.maximum]
    dsimp only
    omega
  have hplaying : (t.cursor id).playing = true := by
    rw [hcursor]
    exact hp
  have hround {Q : Round → Session → Prop}
      (hq : if (t.cursor id).atEnd then Q (.ended true) (t.stopped id) else Q (.onward true) t) :
      Leads s (playRound tell id) Q := by
    refine leads_playRound ?_
    simp only [stepForward, leads_bind, leads_get, hnext, landOn?, leads_landOn h.displays h.atEase hlt,
      leads_pure]
    exact ⟨h.atEase, hplaying, some _, rfl, hq⟩
  split
  · rename_i hend
    exact run_of_leads fun Q hq => hround (by rwa [if_pos (hatEnd.mpr hend)])
  · rename_i hend
    exact run_of_leads fun Q hq => hround (by rwa [if_neg (mt hatEnd.mp hend)])

end Step

/-! ## All ticks -/

section Play

open Session

variable {s : Session} {id : Nat} {course : Snapshot}

/-- **Playing to the end.** The induction is on the moves that are left. Every tick that goes on leaves one
less, so playing does not end early. -/
theorem playFrom_eq (h : s.ReadyToPlay id course) (hp : (s.cursor id).playing = true) (left : Nat)
    (hleft : (s.cursor id).position + left = course.maxIndex) (played : Played) :
    playFrom id played s =
      (.ok { played := ⟨played.steps + left, played.ticks + max 1 left⟩ }, s.playedOut id course) := by
  induction left generalizing s played with
  | zero =>
    have hend : (s.cursor id).maximum ≤ (s.cursor id).position := by
      rw [h.spans.maximum]
      omega
    rw [playFrom, if_pos hp, Step.run_playRound_atEnd h.atEase hp hend, playedOut_of_atEnd hleft]
    rfl
  | succ left ih =>
    have hlt : (s.cursor id).position + 1 < course.moves.length := by
      rw [Snapshot.maxIndex, Snapshot.moveCount] at hleft
      omega
    have hindex := h.displays.index _ hlt
    have hround := Step.run_playRound_of_lt h hp hlt
    have hrest : (s.stepped id course course.moves[(s.cursor id).position + 1]).playedOut id course =
        s.playedOut id course := playedOut_stepped h.spans.present hlt hindex
    have hthen := h.stepped course.moves[(s.cursor id).position + 1]
    have hcursor := cursor_stepped h.spans.present course course.moves[(s.cursor id).position + 1]
    rw [hindex] at hcursor
    -- what is left to do depends on the session after this tick, not on how it came about
    generalize s.stepped id course course.moves[(s.cursor id).position + 1] = t at hround hrest hthen hcursor
    have hposition : (t.cursor id).position = (s.cursor id).position + 1 := by rw [hcursor]; rfl
    rw [playFrom, if_pos hp, hround]
    by_cases hend : (s.cursor id).position + 1 = course.maxIndex
    · have hzero : left = 0 := by omega
      rw [if_pos hend, ← hrest, playedOut_of_atEnd (hposition.trans hend), hzero]
      rfl
    · have hplaying : (t.cursor id).playing = true := by
        rw [hcursor]
        exact hp
      have hnearer : Nearer id t s := by
        refine .inr ⟨by rw [hthen.atEase, h.atEase], ?_⟩
        rw [Cursor.remaining, Cursor.remaining, hthen.spans.maximum, h.spans.maximum]
        omega
      have hsteps : (played.tick true).steps + left = played.steps + (left + 1) := by
        simp only [Played.tick, if_true]
        omega
      have hticks : (played.tick true).ticks + max 1 left = played.ticks + max 1 (left + 1) := by
        simp only [Played.tick]
        omega
      rw [if_neg hend]
      dsimp only
      rw [dif_pos hnearer, ih hthen hplaying (by omega), hrest, hsteps, hticks]

/-- Playing by a clock, from any place of the range. -/
theorem Step.run_playEvery (h : s.ReadyToPlay id course) (hp : (s.cursor id).playing = true)
    (hwithin : (s.cursor id).position ≤ course.maxIndex) {interval : Nat} (hi : interval ≠ 0) :
    (playEvery interval id).run s =
      (.ok { played := ⟨course.maxIndex - (s.cursor id).position,
          max 1 (course.maxIndex - (s.cursor id).position)⟩ }, s.playedOut id course) := by
  have hplay := playFrom_eq h hp (course.maxIndex - (s.cursor id).position) (by omega) {}
  simp only [Nat.zero_add] at hplay
  rw [playEvery, if_neg hi]
  exact hplay

end Play

/-! ## Playing a course from its start -/

namespace Step

open Session

variable {s : Session} {id i : Nat} {course : Snapshot}

theorem run_seek (h : s.ReadyToPlay id course) (hi : i < course.moves.length) :
    (seek tell id i).run s = (.ok (.ok course.moves[i]), s.stepped id course course.moves[i]) := by
  rw [run_seek_of_le (h.spans.le_maximum_iff.mpr (.inl hi))]
  exact run_of_leads fun Q hq => (leads_landOn h.displays h.atEase hi).mpr hq

theorem run_toggle (hs : s.armed = []) :
    (toggle tell id).run s = (.ok !(s.cursor id).playing,
      (s.withEvent (.playback (.playStateChanged !(s.cursor id).playing))).setCursor id
        { s.cursor id with playing := !(s.cursor id).playing }) := by
  have hset : (s.setCursor id { s.cursor id with playing := !(s.cursor id).playing }).armed = [] := hs
  refine run_of_leads fun Q hq => ?_
  simp only [toggle, leads_bind, leads_get, leads_modify, leads_pure,
    leads_tell (e := .playback (.playStateChanged !(s.cursor id).playing)) hset rfl]
  exact hq

/-- A new cursor has the range of the course. -/
theorem run_newCursor (hd : s.job.Displays course) (hs : s.armed = []) :
    newCursor.run s = (.ok s.cursors.size,
      Session.withEvent { s with cursors := s.cursors.push ⟨0, course.maxIndex, false, course.generation⟩ }
        (.playback (.rangeChanged course.maxIndex))) := by
  have hnew : (Session.cursor { s with cursors := s.cursors.push {} } s.cursors.size) = {} := by
    simp [Session.cursor]
  have hset : Session.setCursor { s with cursors := s.cursors.push {} } s.cursors.size
      ⟨0, course.maxIndex, false, course.generation⟩ =
        { s with cursors := s.cursors.push ⟨0, course.maxIndex, false, course.generation⟩ } := by
    have hpush (c d : Cursor) : (s.cursors.push c).setIfInBounds s.cursors.size d = s.cursors.push d := by
      apply Array.toList_inj.mp
      simp
    simp only [Session.setCursor, hpush]
  have hrange : Cursor.setRange? {} course.maxIndex course.generation =
      some ⟨0, course.maxIndex, false, course.generation⟩ := rfl
  have hquiet : Session.armed
    { s with cursors := s.cursors.push ⟨0, course.maxIndex, false, course.generation⟩ } = [] := hs
  refine run_of_leads fun Q hq => ?_
  simp only [newCursor, refresh, setRange, leads_bind, leads_get, leads_modify, leads_discard, leads_pure,
    hd.shown, hnew, hrange, hset, leads_tell (e := .playback (.rangeChanged course.maxIndex)) hquiet rfl]
  exact hq

end Step

namespace Session

variable {s : Session} {course : Snapshot}

/-- Whoever writes into a journal writes into an open one. -/
def JournalsOpen (s : Session) : Prop :=
  ∀ x ∈ s.bus.subscriptions, ∀ book, x.listener = .journal book → book < s.journals.size

/-- The session after a journal was opened. -/
def withJournal (s : Session) (filter : Filter) : Session :=
  { s with
    journals := s.journals.push #[]
    bus := (s.bus.subscribe filter (.journal s.journals.size)).1 }

/-- A new journal gets what its filter accepts. -/
theorem noted_withJournal (h : s.JournalsOpen) (filter : Filter) (events : List Event) :
    (s.withJournal filter).noted s.journals.size events = events.filter filter.accepts := by
  have hcount (e : Event) : ((s.withJournal filter).bus.matching e).count (.journal s.journals.size) =
      if filter.accepts e then 1 else 0 := by
    have hold : (s.bus.matching e).count (.journal s.journals.size) = 0 := by
      refine List.count_eq_zero.mpr fun hmem => ?_
      obtain ⟨x, hx, hl⟩ := List.mem_map.mp hmem
      exact Nat.lt_irrefl _ (h x (List.mem_filter.mp hx).1 _ hl)
    have hnew : (s.withJournal filter).bus.matching e = s.bus.matching e ++
        if filter.accepts e then [.journal s.journals.size] else [] := by
      simp only [withJournal, Bus.subscribe, Bus.matching, List.filter_append, List.map_append]
      cases hacc : filter.accepts e <;> simp [hacc]
    rw [hnew, List.count_append, hold]
    cases filter.accepts e <;> simp
  induction events with
  | nil => rfl
  | cons e events ih =>
    rw [noted, List.flatMap_cons, hcount, ← noted, ih]
    cases hacc : filter.accepts e <;> simp [hacc]

/-- The session in which a course is about to be played: it has a new journal of selections and a new
cursor. -/
def staged (s : Session) (course : Snapshot) : Session :=
  Session.withEvent
    { s.withJournal (.categories [.selection]) with
      cursors := s.cursors.push ⟨0, course.maxIndex, false, course.generation⟩ }
    (.playback (.rangeChanged course.maxIndex))

/-- The session in which the first move was selected and the cursor set going. -/
def underway (s : Session) (course : Snapshot) (m : Move) : Session :=
  ((s.staged course).withEvents [course.selected m, .playback (.playStateChanged true)]).setCursor s.cursors.size
    ⟨0, course.maxIndex, true, course.generation⟩

theorem cursor_staged (s : Session) (course : Snapshot) :
    (s.staged course).cursor s.cursors.size = ⟨0, course.maxIndex, false, course.generation⟩ := by
  simp [staged, Session.cursor, Session.withEvent]

theorem size_staged (s : Session) (course : Snapshot) :
    s.cursors.size < (s.staged course).cursors.size := by
  simp [staged]

theorem cursor_underway (s : Session) (course : Snapshot) (m : Move) :
    (s.underway course m).cursor s.cursors.size = ⟨0, course.maxIndex, true, course.generation⟩ := by
  rw [underway, cursor_setCursor, cursors_withEvents, if_pos ⟨rfl, s.size_staged course⟩]

theorem readyToPlay_staged (hd : s.job.Displays course) (hs : s.armed = []) :
    (s.staged course).ReadyToPlay s.cursors.size course :=
  ⟨hd, hs, .of_cursor_eq (s.size_staged course) (s.cursor_staged course)⟩

theorem readyToPlay_underway (hd : s.job.Displays course) (hs : s.armed = []) (m : Move) :
    (s.underway course m).ReadyToPlay s.cursors.size course := by
  refine ⟨hd, ?_, .of_cursor_eq ?_ (s.cursor_underway course m)⟩
  · exact hs
  · rw [underway, size_setCursor, cursors_withEvents]
    exact s.size_staged course

/-- The new journal gets the selections. -/
theorem journal_staged (hopen : s.JournalsOpen) (course : Snapshot) (events : List Event) :
    ((s.staged course).withEvents events).journal? s.journals.size =
      some (events.filter (Filter.categories [.selection]).accepts) := by
  have hnew : Session.journal?
      { s.withJournal (.categories [.selection]) with
        cursors := s.cursors.push ⟨0, course.maxIndex, false, course.generation⟩ } s.journals.size =
      some [] := by
    simp [journal?, withJournal]
  rw [staged, ← withEvents_cons, journal_withEvents, hnew, Option.map_some, List.nil_append]
  exact congrArg some (noted_withJournal hopen (.categories [.selection]) _)

theorem filter_selected (course : Snapshot) (ms : List Move) :
    (ms.map course.selected).filter (Filter.categories [.selection]).accepts = ms.map course.selected := by
  refine List.filter_eq_self.mpr fun e he => ?_
  obtain ⟨m, -, rfl⟩ := List.mem_map.mp he
  rfl

/-- When the course was played, the journal has the selection of every move. -/
theorem journal_playedOut (hopen : s.JournalsOpen) (hpos : 0 < course.moves.length) :
    ((s.underway course course.moves[0]).playedOut s.cursors.size course).journal? s.journals.size =
      some (course.moves.map course.selected) := by
  rw [playedOut, cursor_underway, underway, withEvents_setCursor, setCursor_setCursor, ← withEvents_append]
  refine (journal_staged hopen course _).trans (congrArg some ?_)
  rw [List.filter_append, List.filter_append, filter_selected]
  have hsplit : course.moves[0] :: course.moves.drop 1 = course.moves := (List.drop_eq_getElem_cons hpos).symm
  show course.selected course.moves[0] :: ((course.moves.drop 1).map course.selected ++ []) = _
  rw [List.append_nil, ← List.map_cons, hsplit]

end Session

namespace Step

open Session

variable {s : Session} {course : Snapshot}

theorem run_toggle_staged (hd : s.job.Displays course) (hs : s.armed = []) (hpos : 0 < course.moves.length) :
    (toggle tell s.cursors.size).run ((s.staged course).stepped s.cursors.size course course.moves[0]) =
      (.ok true, s.underway course course.moves[0]) := by
  have hfirst : ((s.staged course).stepped s.cursors.size course course.moves[0]).cursor s.cursors.size =
      ⟨0, course.maxIndex, false, course.generation⟩ := by
    rw [cursor_stepped (s.size_staged course), hd.index 0 hpos, cursor_staged]
    rfl
  have hquiet : ((s.staged course).stepped s.cursors.size course course.moves[0]).armed = [] := hs
  rw [run_toggle hquiet, hfirst, stepped, withEvent_setCursor, setCursor_setCursor]
  rfl

end Step

namespace CommandLine

open Session Step

variable {s t : Session} {course : Snapshot}

theorem perform_of_run {α : Type} {step : Step α} {a : α} (h : step.run s = (.ok a, t)) :
    perform s step = pure (a, t) := by
  simp only [perform, h]

/-- The moves of a course are found again from their selections. -/
theorem selectedMoves_selected (hd : s.job.Displays course) {ms : List Move}
    (hms : ∀ m ∈ ms, m ∈ course.moves) :
    selectedMoves course (ms.map course.selected).toArray = ms := by
  induction ms with
  | nil => rfl
  | cons m ms ih =>
    obtain ⟨i, hi, rfl⟩ := List.getElem_of_mem (hms m List.mem_cons_self)
    have hfind : course.moves[course.moves[i].index]? = some course.moves[i] := by
      rw [hd.index i hi]
      exact List.getElem?_eq_getElem hi
    have hfirst : selectedMoves course ((course.moves[i] :: ms).map course.selected).toArray =
        course.moves[i] :: selectedMoves course (ms.map course.selected).toArray := by
      simp only [selectedMoves, List.map_cons, List.filterMap_cons, Snapshot.selected, hfind]
    rw [hfirst, ih fun x hx => hms x (List.mem_cons_of_mem _ hx)]

theorem selectedMoves_of_journal (hd : s.job.Displays course) {ms : List Move}
    (hms : ∀ m ∈ ms, m ∈ course.moves) {book : Nat}
    (hjournal : t.journal? book = some (ms.map course.selected)) :
    selectedMoves course (t.journals.getD book #[]) = ms := by
  obtain ⟨journal, hbook, hlist⟩ := Option.map_eq_some_iff.mp hjournal
  have harray : journal = (ms.map course.selected).toArray := by rw [← hlist]
  rw [Array.getD_eq_getD_getElem?, hbook, Option.getD_some, harray, selectedMoves_selected hd hms]

/-- What is written when a course is played from its start. -/
theorem run_play (hd : s.job.Displays course) (hs : s.armed = []) (hopen : s.JournalsOpen)
    (hne : course.moves ≠ []) {interval : Nat} (hi : interval ≠ 0) (written : List Output) :
    (play interval course s).run written = (.ok (), written ++ (course.moves.take 1).map playLine ++
      (course.moves.drop 1).flatMap fun m => [.pause interval, playLine m]) := by
  have hpos : 0 < course.moves.length := List.length_pos_iff.mpr hne
  have hopened : (openJournal (.categories [.selection])).run s =
      (.ok (s.bus.nextId, s.journals.size), s.withJournal (.categories [.selection])) := rfl
  have hadded : newCursor.run (s.withJournal (.categories [.selection])) =
      (.ok s.cursors.size, s.staged course) := run_newCursor hd hs
  have hsought := run_seek (readyToPlay_staged hd hs) hpos
  have htoggled := run_toggle_staged hd hs hpos
  have hstart : ((s.underway course course.moves[0]).cursor s.cursors.size).position ≤ course.maxIndex := by
    rw [cursor_underway]
    exact Nat.zero_le _
  have hplayed := run_playEvery (readyToPlay_underway hd hs course.moves[0]) (by rw [cursor_underway]) hstart hi
  have hfirst : ((s.staged course).stepped s.cursors.size course course.moves[0]).journal? s.journals.size =
      some ([course.moves[0]].map course.selected) :=
    journal_staged hopen course [course.selected course.moves[0]]
  have hshown := selectedMoves_of_journal hd (by simp) hfirst
  have hall := selectedMoves_of_journal hd (fun _ h => h) (journal_playedOut hopen hpos)
  simp only [play, perform_of_run hopened, perform_of_run hadded, perform_of_run hsought,
    perform_of_run htoggled, perform_of_run hplayed, pure_bind, hshown, hall]
  rw [List.take_one, List.head?_eq_getElem?, List.getElem?_eq_getElem hpos]
  rfl

end CommandLine

/-! ## Every ready job -/

/-- The moves from a place on have the places from there on. -/
theorem Job.Displays.index_drop {j : Job} {course : Snapshot} (hd : j.Displays course) (k : Nat) :
    (course.moves.drop k).map Move.index = List.range' k (course.moves.length - k) := by
  refine List.ext_getElem (by simp) fun i h h' => ?_
  simp only [List.length_map, List.length_drop] at h
  rw [List.getElem_map, List.getElem_drop, hd.index _ (by omega), List.getElem_range', Nat.one_mul]

namespace Session

open Step

/-- A cursor has visited moves of a course up to its end: it has announced each of them, then that it stops,
and nothing else; it stands on the last move of the course; and nothing else has changed. -/
structure Visited (course : Snapshot) (ms : List Move) (id : Nat) (s t : Session) : Prop where
  cursor : t.cursor id = ⟨course.maxIndex, course.maxIndex, false, course.generation⟩
  carried : s.bus.Carries t.bus (.inTurn (ms.map course.selected ++ Event.finale))
  others : t = (s.withEvents (ms.map course.selected ++ Event.finale)).setCursor id (t.cursor id)

theorem visited {s : Session} {id : Nat} {course : Snapshot} (hspan : s.Spans id course) (ms : List Move) :
    Visited course ms id s ((s.withEvents (ms.map course.selected ++ Event.finale)).setCursor id
      { s.cursor id with position := course.maxIndex, playing := false }) := by
  have hcursor : ((s.withEvents (ms.map course.selected ++ Event.finale)).setCursor id
      { s.cursor id with position := course.maxIndex, playing := false }).cursor id =
        { s.cursor id with position := course.maxIndex, playing := false } := by
    rw [cursor_setCursor, cursors_withEvents, if_pos ⟨rfl, hspan.present⟩]
  refine ⟨?_, s.carries_withEvents _, ?_⟩
  · rw [hcursor]
    simp only [hspan.maximum, hspan.generation]
  · rw [hcursor]

/-- **Playing visits every move that is left, once and in order.** Whatever turns led to a ready job, as long
as nobody else acts: a cursor in step plays to the end of the course; one that does not play stays where it
is; and from its start a course is visited and written as a whole. -/
theorem playing_visits_rest (s : Session) (turns : List Turn)
    (hjob : s.job = (JobSystem.after s.setup turns).job) (hready : s.job.phase = .ready)
    (hs : s.armed = []) (interval : Nat) (hi : interval ≠ 0) :
    ∃ course, s.job.snapshot = some course ∧
      (∀ id, s.Spans id course → (s.cursor id).playing = true →
        (s.cursor id).position ≤ course.maxIndex →
          (course.moves.drop ((s.cursor id).position + 1)).map Move.index =
            List.range' ((s.cursor id).position + 1) (course.maxIndex - (s.cursor id).position) ∧
          Leads s (playEvery interval id) fun result t =>
            result.played.steps = course.maxIndex - (s.cursor id).position ∧ result.failure = none ∧
            s.Visited course (course.moves.drop ((s.cursor id).position + 1)) id t) ∧
      (∀ id, (s.cursor id).playing = false → (playEvery interval id).run s = (.ok { played := {} }, s)) ∧
      (course.moves ≠ [] → ∀ id, s.Spans id course → (s.cursor id).playing = true →
        course.moves.map Move.index = List.range' 0 (course.maxIndex + 1) ∧
        Leads s (do
            discard (seek tell id 0)
            playEvery interval id)
          fun result t => result.played.steps = course.maxIndex ∧ result.failure = none ∧
            s.Visited course course.moves id t) ∧
      (course.moves ≠ [] → s.JournalsOpen → ∀ written,
        (CommandLine.play interval course s).run written =
          (.ok (), written ++ (course.moves.take 1).map CommandLine.playLine ++
            (course.moves.drop 1).flatMap fun m => [.pause interval, CommandLine.playLine m])) := by
  obtain ⟨course, hd⟩ := JobSystem.after_displays s.setup turns (hjob ▸ hready)
  rw [← hjob] at hd
  refine ⟨course, hd.shown, fun id hspan hp hwithin => ⟨?_, ?_⟩, fun id hp => ?_,
    fun hne id hspan hp => ⟨?_, ?_⟩, fun hne hopen => CommandLine.run_play hd hs hopen hne hi⟩
  · have hcount : course.moves.length - ((s.cursor id).position + 1) =
        course.maxIndex - (s.cursor id).position := by
      rw [Snapshot.maxIndex, Snapshot.moveCount]
      omega
    rw [hd.index_drop, hcount]
  · exact ⟨_, _, run_playEvery ⟨hd, hs, hspan⟩ hp hwithin hi, rfl, rfl, visited hspan _⟩
  · rw [playEvery, if_neg hi]
    show playFrom id {} s = _
    rw [playFrom, if_neg (Bool.eq_false_iff.mp hp)]
  · have hcount : course.moves.length - 0 = course.maxIndex + 1 := by
      have hpos : 0 < course.moves.length := List.length_pos_iff.mpr hne
      rw [Snapshot.maxIndex, Snapshot.moveCount]
      omega
    rw [← hcount, ← hd.index_drop, List.drop_zero]
  · have hpos : 0 < course.moves.length := List.length_pos_iff.mpr hne
    have hcursor := cursor_stepped hspan.present course course.moves[0]
    rw [hd.index 0 hpos] at hcursor
    have hpoised : s.ReadyToPlay id course := ⟨hd, hs, hspan⟩
    have hplayed := run_playEvery (hpoised.stepped course.moves[0]) (by rw [hcursor]; exact hp)
      (by rw [hcursor]; exact Nat.zero_le _) hi
    rw [hcursor, playedOut_stepped hspan.present hpos (hd.index 0 hpos)] at hplayed
    refine leads_bind.mpr (leads_discard.mpr ⟨_, _, run_seek hpoised hpos, _, _, hplayed, rfl, rfl, ?_⟩)
    exact visited hspan course.moves

/-- A cursor on the first of three moves. -/
theorem playing_visits_three_moves :
    let run : Run := ⟨1, ⟨"a.nc", "G0 X1\nG0 X2\nG0 X3"⟩⟩
    let turns : List Turn :=
      [.begin run.program, .start run, .finish run (MoveId.mint 1) fun _ => false]
    let s : Session :=
      { setup := {}, job := (JobSystem.after {} turns).job, cursors := #[⟨0, 2, true, 1⟩] }
    Leads s (playEvery 40 0) fun result t =>
      result.played.steps = 2 ∧ t.cursor 0 = ⟨2, 2, false, 1⟩ := by
  intro run turns s
  have hready : s.job.phase = .ready := by decide +kernel
  obtain ⟨course, hshown, hplay, -⟩ := playing_visits_rest s turns rfl hready rfl 40 (by decide)
  have hmax : s.job.snapshot.map Snapshot.maxIndex = some 2 := by decide +kernel
  have hgeneration : s.job.snapshot.map Snapshot.generation = some 1 := by decide +kernel
  rw [hshown] at hmax hgeneration
  have hmax : course.maxIndex = 2 := Option.some.inj hmax
  have hgeneration : course.generation = 1 := Option.some.inj hgeneration
  have hspan : s.Spans 0 course := ⟨by decide, hmax.symm, hgeneration.symm⟩
  obtain ⟨-, hleads⟩ := hplay 0 hspan rfl (Nat.zero_le _)
  refine hleads.mono fun result t ⟨hsteps, _, hvisited⟩ => ⟨?_, ?_⟩
  · rw [hsteps, hmax]
    rfl
  · rw [hvisited.cursor, hmax, hgeneration]

end Session

end Toolpath
