import Toolpath.Proofs.Bus.PublishTree
import Toolpath.Proofs.Session.Following

/-!
# Sessions without reactions

In a session in which no reaction is to come, the handlers of an event write it into a journal or take
the range of a finished course, and do nothing else. What publishing an event does to such a session can
be said exactly.

* `Session.withEvent`, `Session.withEvents`: the session after events that no cursor follows.
* `Step.leads_tell`: publishing any other event than a finished course comes to that.
* `Session.carries_withEvents`: history and receivers get the events one after another.
* `Session.noted`, `Session.journal_withEvents`: so does a journal, as often as it is subscribed to them.
-/

namespace Toolpath

/-- The journals after a listener was called with an event. -/
def Listener.note (e : Event) (journals : Array (Array Event)) : Listener → Array (Array Event)
  | .journal book => journals.modify book (·.push e)
  | .follow _ | .reaction _ => journals

namespace Session

/-- The session after an event that no cursor follows: history, journals and receivers have it. -/
def withEvent (s : Session) (e : Event) : Session :=
  { s with
    bus := (s.bus.record e).broadcast e
    journals := (s.bus.matching e).foldl (Listener.note e) s.journals }

/-- The session after such events. -/
def withEvents (s : Session) (events : List Event) : Session := events.foldl withEvent s

variable (s : Session) (e : Event) (events later : List Event) (id : Nat) (c : Cursor)

@[simp] theorem cursor_withEvent : (s.withEvent e).cursor id = s.cursor id := rfl

@[simp] theorem cursors_withEvent : (s.withEvent e).cursors = s.cursors := rfl

@[simp] theorem withEvent_setCursor : (s.setCursor id c).withEvent e = (s.withEvent e).setCursor id c := rfl

@[simp] theorem subscriptions_withEvent : (s.withEvent e).bus.subscriptions = s.bus.subscriptions :=
  Bus.subscriptions_record s.bus e

@[simp] theorem withEvents_nil : s.withEvents [] = s := rfl

@[simp] theorem withEvents_cons : s.withEvents (e :: events) = (s.withEvent e).withEvents events := rfl

theorem withEvents_append : s.withEvents (events ++ later) = (s.withEvents events).withEvents later :=
  List.foldl_append

theorem withEvents_setCursor : (s.setCursor id c).withEvents events = (s.withEvents events).setCursor id c := by
  induction events generalizing s with
  | nil => rfl
  | cons e events ih => simp only [withEvents_cons, withEvent_setCursor, ih]

@[simp] theorem cursors_withEvents : (s.withEvents events).cursors = s.cursors := by
  induction events generalizing s with
  | nil => rfl
  | cons e events ih => exact ih (s.withEvent e)

end Session

/-! ## Publishing -/

namespace Step

open Session

section Deliver

variable {s : Session} {follow : Nat → Publisher} {act : Deed → Step Unit} {e : Event}

/-- Listeners are called while no reaction is to come and no cursor follows the event. -/
theorem leads_forM_call (hs : s.armed = []) {ls : List Listener}
    (hf : ∀ id, .follow id ∈ ls → follow id e = pure ()) {Q : PUnit → Session → Prop} :
    Leads s (ls.forM (call follow act e)) Q ↔
      Q ⟨⟩ { s with journals := ls.foldl (Listener.note e) s.journals } := by
  induction ls generalizing s with
  | nil => exact leads_pure
  | cons l ls ih =>
    have hrest : ∀ id, .follow id ∈ ls → follow id e = pure () :=
      fun id h => hf id (List.mem_cons_of_mem l h)
    show Leads s (call follow act e l >>= fun _ => ls.forM (call follow act e)) Q ↔ _
    rw [leads_bind]
    cases l with
    | journal book =>
      simp only [call, leads_modify]
      exact ih hs hrest
    | follow id =>
      simp only [call, hf id List.mem_cons_self, leads_pure]
      exact ih hs hrest
    | reaction id =>
      have hnone : s.triggered? id e = none := by simp [triggered?, hs]
      simp only [call, leads_bind, leads_get, hnone, leads_pure]
      exact ih hs hrest

/-- An event is delivered while no reaction is to come and no cursor follows it. -/
theorem leads_deliver_withEvent (hs : s.armed = [])
    (hf : ∀ id, .follow id ∈ s.bus.matching e → follow id e = pure ()) {Q : PUnit → Session → Prop} :
    Leads s (discard (deliver follow act e)) Q ↔ Q ⟨⟩ (s.withEvent e) := by
  have hrecord : Session.armed { s with bus := s.bus.record e } = [] := hs
  rw [leads_discard, leads_deliver, leads_forM_call hrecord hf]
  rfl

/-- While no reaction is to come, publishing an event is one announcement. -/
theorem leads_tell_deliver (hs : s.armed = []) {Q : PUnit → Session → Prop} :
    Leads s (tell e) Q ↔ Leads s (discard (deliverAll (fun _ => pure ()) e)) Q := by
  simp only [tell, publish, leads_discard, leads_bind, leads_get, hs, List.length_nil, announce]

/-- **Publishing an event that no cursor follows.** -/
theorem leads_tell (hs : s.armed = []) (he : e.isFinish = false) {Q : PUnit → Session → Prop} :
    Leads s (tell e) Q ↔ Q ⟨⟩ (s.withEvent e) :=
  (leads_tell_deliver hs).trans (leads_deliver_withEvent hs fun id _ => followUp_of_not_finish _ id he)

end Deliver

end Step

/-! ## History and receivers -/

theorem Session.carries_withEvent (s : Session) (e : Event) : s.bus.Carries (s.withEvent e).bus (.inTurn [e]) :=
  .around (.of_eq rfl rfl rfl)

/-- History and receivers get the events one after another, and nothing else. -/
theorem Session.carries_withEvents (s : Session) (events : List Event) :
    s.bus.Carries (s.withEvents events).bus (.inTurn events) := by
  induction events generalizing s with
  | nil => exact .of_eq rfl rfl rfl
  | cons e events ih => exact (s.carries_withEvent e).trans (ih (s.withEvent e))

/-! ## Journals -/

/-- A journal, as far as it is open. -/
def Session.journal? (s : Session) (book : Nat) : Option (List Event) := s.journals[book]?.map Array.toList

theorem Listener.getElem?_note (e : Event) (journals : Array (Array Event)) (l : Listener) (book : Nat) :
    (l.note e journals)[book]? =
      if l = .journal book then journals[book]?.map (·.push e) else journals[book]? := by
  cases l with
  | journal other => simp only [note, Array.getElem?_modify, Listener.journal.injEq]
  | follow id | reaction id => simp [note]

namespace Session

/-- What is written into a journal when events are published. -/
def noted (s : Session) (book : Nat) (events : List Event) : List Event :=
  events.flatMap fun e => List.replicate ((s.bus.matching e).count (.journal book)) e

variable (s : Session) (e : Event) (events : List Event) (book : Nat)

theorem getElem?_foldl_note (journals : Array (Array Event)) (ls : List Listener) :
    (ls.foldl (Listener.note e) journals)[book]?.map Array.toList =
      journals[book]?.map fun j => j.toList ++ List.replicate (ls.count (.journal book)) e := by
  induction ls generalizing journals with
  | nil => simp
  | cons l ls ih =>
    rw [List.foldl_cons, ih, Listener.getElem?_note, List.count_cons]
    by_cases hl : l = .journal book
    · simp [hl, Function.comp_def, List.replicate_succ]
    · simp [hl]

theorem journal_withEvents :
    (s.withEvents events).journal? book = (s.journal? book).map (· ++ s.noted book events) := by
  induction events generalizing s with
  | nil => simp [noted]
  | cons e events ih =>
    have hnoted : (s.withEvent e).noted book events = s.noted book events := by
      simp only [noted, Bus.matching, subscriptions_withEvent]
    have hfirst : (s.withEvent e).journal? book = s.journals[book]?.map fun j =>
        j.toList ++ List.replicate ((s.bus.matching e).count (.journal book)) e :=
      getElem?_foldl_note e book s.journals (s.bus.matching e)
    rw [withEvents_cons, ih, hnoted, hfirst]
    simp [journal?, noted, Function.comp_def]

end Session

end Toolpath
