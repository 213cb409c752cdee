import Mathlib.Data.List.DropRight
import Toolpath.Proofs.Bus.Request

/-!
# The event history

`add_to_history` trims a history twice whenever an event enters it: what is too old goes, and what is
too much. As long as nothing in it gets too old, it holds the last events that were published, and a
mark cuts it where it was taken.

* `Bus.published`: the events since the history was last cleared, read off the requests.
* `Bus.Fresh`: nothing in the history is too old when an event is published.
* `Bus.history_serveAll`: later requests push events out of an earlier history and put theirs behind it.
* `Bus.history_recent`: the history is the last of the published events, as many as fit.
-/

namespace Toolpath

/-- The last elements of two lists, one behind the other. -/
theorem rtake_append {α : Type} (xs ys : List α) (n : Nat) :
    (xs ++ ys).rtake n = xs.rtake (n - ys.length) ++ ys.rtake n := by
  rw [List.rtake_eq_reverse_take_reverse, List.reverse_append, List.take_append, List.reverse_append,
    List.length_reverse, ← List.rtake_eq_reverse_take_reverse, ← List.rtake_eq_reverse_take_reverse]

/-- A window that moves on by one element. -/
theorem rtake_concat_rtake {α : Type} (xs : List α) (x : α) (n : Nat) :
    (xs.rtake n ++ [x]).rtake n = (xs ++ [x]).rtake n := by
  cases n with
  | zero => rw [List.rtake_zero, List.rtake_zero]
  | succ n =>
    rw [List.rtake_concat_succ, List.rtake_concat_succ, List.rtake_eq_reverse_take_reverse (xs.rtake _),
      List.rtake_eq_reverse_take_reverse xs, List.reverse_reverse, List.take_take,
      Nat.min_eq_left n.le_succ, ← List.rtake_eq_reverse_take_reverse]

namespace Bus

variable {η : Type} {b : Bus η} {r : Request η} {e : Event}

/-- The events that were published since the history was last cleared. -/
def published (requests : List (Request η)) : List Event :=
  (requests.rtakeWhile fun r => !r.clears).filterMap Request.event?

/-- Nothing in the history of a bus is too old when an event is published. -/
def Fresh (b : Bus η) (requests : List (Request η)) : Prop :=
  ∀ before r later, requests = before ++ r :: later → r.event?.isSome →
    ∀ s ∈ (b.serveAll before).history, (b.serveAll before).clock - s.time ≤ b.config.retention

theorem Fresh.of_append {before later : List (Request η)} (h : b.Fresh (before ++ later)) :
    b.Fresh before ∧ (b.serveAll before).Fresh later := by
  constructor
  · rintro first r rest rfl
    exact h first r (rest ++ later) (by simp)
  · rintro first r rest rfl
    rw [← serveAll_append, config_serveAll]
    exact h (before ++ first) r rest (by simp)

/-! ## One request -/

theorem published_concat (requests : List (Request η)) (r : Request η) :
    published (requests ++ [r]) = if r.clears then [] else published requests ++ r.event?.toList := by
  rw [published, List.rtakeWhile_concat]
  cases hr : r.clears
  · cases he : r.event? <;> simp [published, he]
  · rfl

theorem history_of_clears (h : r.clears = true) : (b.serve r).history = [] := by
  cases r with
  | clearHistory => rfl
  | _ => cases h

/-- What is too much goes when an event enters a history, if nothing is too old. -/
theorem trimmed_concat {config : BusConfig} {now : Nat} {history : List Stamped}
    (hfresh : ∀ s ∈ history, now - s.time ≤ config.retention) (e : Event) :
    trimmed config now (history ++ [.mk e now]) =
      (history ++ [Stamped.mk e now]).rtake config.historySize := by
  have hold : ∀ s ∈ history ++ [Stamped.mk e now], ¬ config.retention < now - s.time := by
    intro s hs
    rcases List.mem_append.mp hs with hs | hs
    · exact Nat.not_lt.mpr (hfresh s hs)
    · rw [List.mem_singleton.mp hs, Nat.sub_self]
      exact Nat.not_lt_zero _
  have hkept : (history ++ [Stamped.mk e now]).dropWhile (fun s => now - s.time > config.retention) =
      history ++ [Stamped.mk e now] :=
    List.dropWhile_eq_self_iff.mpr fun hl => mt of_decide_eq_true (hold _ (List.getElem_mem hl))
  rw [trimmed, hkept, List.rtake]

/-- Publishing pushes out only what is too much, as long as nothing is too old. -/
theorem history_of_event (hkeeps : b.config.keepsHistory = true)
    (hfresh : ∀ s ∈ b.history, b.clock - s.time ≤ b.config.retention) (he : r.event? = some e) :
    (b.serve r).history = (b.history ++ [Stamped.mk e b.clock]).rtake b.config.historySize ∧
      (b.serve r).clock = b.clock + 1 := by
  have hserve : b.serve r = (b.record e).broadcast e := by
    cases r with
    | publish f | notify f => cases he; rfl
    | _ => cases he
  rw [hserve, record, if_pos hkeeps]
  exact ⟨trimmed_concat hfresh e, rfl⟩

theorem history_of_else (hclears : r.clears = false) (he : r.event? = none) :
    (b.serve r).history = b.history := by
  cases r with
  | publish f | notify f => cases he
  | clearHistory => cases hclears
  | _ => rfl

theorem clock_le_serve (b : Bus η) (r : Request η) : b.clock ≤ (b.serve r).clock := by
  cases r with
  | publish e | notify e =>
    show b.clock ≤ (b.record e).clock
    rw [record]
    split
    · exact Nat.le_succ _
    · exact Nat.le_refl _
  | wait time => exact Nat.le_add_right _ _
  | _ => exact Nat.le_refl _

theorem clock_le_serveAll (b : Bus η) (requests : List (Request η)) :
    b.clock ≤ (b.serveAll requests).clock := by
  induction requests generalizing b with
  | nil => exact Nat.le_refl _
  | cons r requests ih => exact Nat.le_trans (clock_le_serve b r) (ih (b.serve r))

/-- A bus that has not been in use for longer than it remembers. -/
theorem fresh_of_clock_le {requests : List (Request η)}
    (h : (b.serveAll requests).clock ≤ b.config.retention) : b.Fresh requests := by
  rintro before r later rfl - s -
  rw [serveAll_append] at h
  exact Nat.le_trans (Nat.sub_le _ _) (Nat.le_trans (clock_le_serveAll _ (r :: later)) h)

/-! ## Many requests -/

/-- From `b` to `c` a history went on with some events. What is left of the earlier one is its end, and behind it
are the last of the events, with times that were not there before. -/
structure HistoryExtends (b c : Bus η) (events : List Event) : Prop where
  config : c.config = b.config
  clock_le : b.clock ≤ c.clock
  history : ∃ old new, c.history = old ++ new ∧ old <:+ b.history ∧
    new.map Stamped.event = events.rtake c.config.historySize ∧ ∀ s ∈ new, b.clock ≤ s.time ∧ s.time < c.clock

namespace HistoryExtends

variable {c : Bus η} {events : List Event}

/-- One more event: the window that the history is moves on. -/
theorem event (h : b.HistoryExtends c events) (hkeeps : b.config.keepsHistory = true)
    (hfresh : ∀ s ∈ c.history, c.clock - s.time ≤ b.config.retention) (he : r.event? = some e) :
    b.HistoryExtends (c.serve r) (events ++ [e]) where
  config := (config_serve c r).trans h.config
  clock_le := Nat.le_trans h.clock_le (clock_le_serve c r)
  history := by
    obtain ⟨old, new, hhistory, hold, hnew, htimes⟩ := h.history
    rw [← h.config] at hkeeps hfresh
    obtain ⟨hentered, htick⟩ := history_of_event hkeeps hfresh he
    rw [hhistory, List.append_assoc, rtake_append] at hentered
    refine ⟨_, _, hentered, (List.drop_suffix _ old).trans hold, ?_, fun s hs => ?_⟩
    · rw [List.rtake, List.map_drop, ← List.length_map Stamped.event, ← List.rtake, List.map_append, hnew,
        config_serve]
      exact rtake_concat_rtake events e _
    · rw [htick]
      rcases List.mem_append.mp (List.mem_of_mem_drop hs) with hs | hs
      · exact ⟨(htimes s hs).1, Nat.lt_succ_of_lt (htimes s hs).2⟩
      · rw [List.mem_singleton.mp hs]
        exact ⟨h.clock_le, Nat.lt_succ_self _⟩

/-- **Step.** -/
theorem serve (h : b.HistoryExtends c events) (hkeeps : b.config.keepsHistory = true)
    (hfresh : r.event?.isSome → ∀ s ∈ c.history, c.clock - s.time ≤ b.config.retention) :
    b.HistoryExtends (c.serve r) (if r.clears then [] else events ++ r.event?.toList) := by
  cases hclears : r.clears with
  | true =>
    refine ⟨(config_serve c r).trans h.config, Nat.le_trans h.clock_le (clock_le_serve c r), ?_⟩
    rw [history_of_clears hclears]
    exact ⟨[], [], rfl, List.nil_suffix, by simp, nofun⟩
  | false =>
    cases he : r.event? with
    | some e => exact h.event hkeeps (hfresh (by rw [he]; rfl)) he
    | none =>
      obtain ⟨old, new, hhistory, hold, hnew, htimes⟩ := h.history
      refine ⟨(config_serve c r).trans h.config, Nat.le_trans h.clock_le (clock_le_serve c r), ?_⟩
      rw [history_of_else hclears he, config_serve]
      refine ⟨old, new, hhistory, hold, by simpa using hnew, fun s hs => ?_⟩
      exact ⟨(htimes s hs).1, Nat.lt_of_lt_of_le (htimes s hs).2 (clock_le_serve c r)⟩

end HistoryExtends

/-- **Run.** The induction takes the last request first, since that is what may clear the history. -/
theorem historyExtends_serveAll (hkeeps : b.config.keepsHistory = true) {requests : List (Request η)}
    (hfresh : b.Fresh requests) : b.HistoryExtends (b.serveAll requests) (published requests) := by
  induction requests using List.reverseRecOn with
  | nil =>
    exact ⟨rfl, Nat.le_refl _, b.history, [], (List.append_nil _).symm, List.suffix_rfl, by simp [published],
      nofun⟩
  | append_singleton requests r ih =>
    rw [published_concat, serveAll_append]
    exact (ih hfresh.of_append.1).serve hkeeps (hfresh requests r [] rfl)

namespace HistoryExtends

variable {c : Bus η} {events : List Event}

/-- A mark separates an earlier history from what came behind it. -/
theorem events_since (h : b.HistoryExtends c events) (hkeeps : b.config.keepsHistory = true)
    (hpast : ∀ s ∈ b.history, s.time < b.clock) :
    c.events (some b.mark) = events.rtake b.config.historySize ∧
      c.events (some b.mark) <:+ c.events none := by
  obtain ⟨old, new, hhistory, hold, hnew, htimes⟩ := h.history
  have hsince : c.history.filter (fun s => (some b.mark).all (· ≤ s.time)) = new := by
    have hgone : old.filter (fun s => (some b.mark).all (· ≤ s.time)) = [] :=
      List.filter_eq_nil_iff.mpr fun s hs => by simpa [mark] using hpast s (hold.subset hs)
    have hkept : new.filter (fun s => (some b.mark).all (· ≤ s.time)) = new :=
      List.filter_eq_self.mpr fun s hs => by simpa [mark] using (htimes s hs).1
    rw [hhistory, List.filter_append, hgone, hkept, List.nil_append]
  rw [← h.config] at hkeeps ⊢
  rw [Bus.events, Bus.events, if_pos hkeeps, if_pos hkeeps, hsince, hhistory]
  exact ⟨hnew, by simp⟩

end HistoryExtends

/-- Everything in a history was entered before. -/
theorem time_lt_clock {config : BusConfig} (hkeeps : config.keepsHistory = true)
    {requests : List (Request η)} (hfresh : Fresh { config } requests) :
    ∀ s ∈ (after config requests).history, s.time < (after config requests).clock := by
  obtain ⟨old, new, hhistory, hold, -, htimes⟩ := (historyExtends_serveAll hkeeps hfresh).history
  rw [after, hhistory, List.suffix_nil.mp hold]
  exact fun s hs => (htimes s hs).2

/-- **A history is the recent past.** Without one nothing is remembered. With one, and as long as nothing in it
gets too old, it holds the last events since it was cleared, in order and as many as fit; a mark taken between
two requests gives those of them that were published later. -/
theorem history_recent (config : BusConfig) (before later : List (Request η)) :
    (config.keepsHistory = false → ∀ since, (after config (before ++ later)).events since = []) ∧
    (config.keepsHistory = true → Fresh { config } (before ++ later) →
      (after config (before ++ later)).events none =
          (published (before ++ later)).rtake config.historySize ∧
        (after config (before ++ later)).events (some (after config before).mark) =
          (published later).rtake config.historySize ∧
        (after config (before ++ later)).events (some (after config before).mark) <:+
          (after config (before ++ later)).events none) := by
  refine ⟨fun hkeeps since => ?_, fun hkeeps hfresh => ⟨?_, ?_⟩⟩
  · rw [events, config_after, hkeeps]
    rfl
  · -- All of a history came since the beginning.
    have hall := ((historyExtends_serveAll hkeeps hfresh).events_since hkeeps (by simp)).1
    simpa [events, mark, after] using hall
  · have hold := hfresh.of_append
    rw [after_append]
    have hkeeps' : (after config before).config.keepsHistory = true := by rwa [config_after]
    have hsince := (historyExtends_serveAll hkeeps' hold.2).events_since hkeeps' (time_lt_clock hkeeps hold.1)
    rwa [config_after] at hsince

/-- A history with room for two events, which was cleared, and a mark between the two that are left. -/
theorem history_recent_of_two :
    let config : BusConfig := { keepsHistory := true, historySize := 2 }
    let before : List (Request Unit) := [.publish (.playback .reachedEnd), .clearHistory,
      .notify (.playback (.rangeChanged 4)), .publish (.playback (.playStateChanged true))]
    let later : List (Request Unit) := [.wait 7, .notify (.job .reset)]
    Fresh { config } (before ++ later) ∧
      (after config (before ++ later)).events none = [.playback (.playStateChanged true), .job .reset] ∧
      (after config (before ++ later)).events (some (after config before).mark) = [.job .reset] := by
  intro config before later
  have hfresh : Fresh { config } (before ++ later) := fresh_of_clock_le (by decide)
  obtain ⟨hall, hsince, -⟩ := (history_recent config before later).2 rfl hfresh
  exact ⟨hfresh, hall, hsince⟩

end Bus

end Toolpath
