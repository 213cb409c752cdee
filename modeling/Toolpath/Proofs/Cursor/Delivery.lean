import Toolpath.Proofs.Cursor.System
import Toolpath.Proofs.Session.Passive

/-!
# `ProcessingFinished` events in any order

`ProcessingFinished` is published after the course of its run was, so the events of several runs may
reach a cursor that follows in any order, and more than once. `set_range` compares generations, and that
alone makes the order irrelevant.

* `Cursor.SettlesOn`: the newest of the announced generations, unless the cursor's own is newer. It depends
  on the set of generations only (`SettlesOn.unique`).
* `Session.Served`: what serving listeners with a finished course does to the cursors (`call_served`, and
  `forM_served` for all of them).
* `Step.inform`: the ends of runs, announced one after another.
* `Session.following_confluent`: the order does not matter.
-/

namespace Toolpath

/-! ## Cursors -/

namespace Cursor

/-- Where a cursor ends up when courses with some generations were announced to it. -/
inductive SettlesOn (count : Nat → Nat) (gs : List Nat) (c : Cursor) : Cursor → Prop
  /-- It stands at the start of the newest course. -/
  | taken (g : Nat) (hmem : g ∈ gs) (hle : c.generation ≤ g) (hnewest : ∀ h ∈ gs, h ≤ g) :
      SettlesOn count gs c { c with position := 0, maximum := count g - 1, generation := g }
  /-- All of them are older than its own. -/
  | ignored (hold : ∀ g ∈ gs, g < c.generation) : SettlesOn count gs c c

/-- Takes the ranges of courses, one after another. -/
def sizedAll (count : Nat → Nat) (c : Cursor) (gs : List Nat) : Cursor :=
  gs.foldl (fun c g => c.sized (count g - 1) g) c

variable {c d d' : Cursor} {count : Nat → Nat} {m g : Nat} {gs hs : List Nat}

/-- A course that is announced twice is taken once. -/
theorem sized_sized : (c.sized m g).sized m g = c.sized m g := by
  rcases Nat.lt_or_ge g c.generation with h | h
  · rw [sized_of_lt h, sized_of_lt h]
  · rw [sized_of_le h, sized_of_le (Nat.le_refl g)]

theorem SettlesOn.generation_le (h : c.SettlesOn count gs d) : c.generation ≤ d.generation := by
  cases h with
  | taken g hmem hle hnewest => exact hle
  | ignored hold => exact Nat.le_refl _

/-- One more course, announced before the others. -/
theorem SettlesOn.cons (h : (c.sized (count g - 1) g).SettlesOn count gs d) :
    c.SettlesOn count (g :: gs) d := by
  rcases Nat.lt_or_ge g c.generation with hg | hg
  · rw [sized_of_lt hg] at h
    cases h with
    | taken newest hmem hle hnewest =>
      have hlate : g ≤ newest := Nat.le_of_lt (Nat.lt_of_lt_of_le hg hle)
      exact .taken newest (.tail g hmem) hle (List.forall_mem_cons.mpr ⟨hlate, hnewest⟩)
    | ignored hold => exact .ignored (List.forall_mem_cons.mpr ⟨hg, hold⟩)
  · rw [sized_of_le hg] at h
    cases h with
    | taken newest hmem hle hnewest =>
      exact .taken newest (.tail g hmem) (Nat.le_trans hg hle) (List.forall_mem_cons.mpr ⟨hle, hnewest⟩)
    | ignored hold =>
      have hnewest : ∀ x ∈ gs, x ≤ g := fun x hx => Nat.le_of_lt (hold x hx)
      exact .taken g (.head gs) hg (List.forall_mem_cons.mpr ⟨Nat.le_refl g, hnewest⟩)

theorem settlesOn_sizedAll (count : Nat → Nat) (c : Cursor) (gs : List Nat) :
    c.SettlesOn count gs (c.sizedAll count gs) := by
  induction gs generalizing c with
  | nil => exact .ignored (by simp)
  | cons g gs ih => exact (ih (c.sized (count g - 1) g)).cons

/-- **Order and repetition do not matter.** -/
theorem SettlesOn.unique (h : c.SettlesOn count gs d) (h' : c.SettlesOn count hs d')
    (hsame : ∀ g, g ∈ gs ↔ g ∈ hs) : d = d' := by
  cases h with
  | taken g hmem hle hnewest =>
    cases h' with
    | taken k hmem' hle' hnewest' =>
      have heq : g = k :=
        Nat.le_antisymm (hnewest' g ((hsame g).mp hmem)) (hnewest k ((hsame k).mpr hmem'))
      rw [heq]
    | ignored hold => exact absurd (hold g ((hsame g).mp hmem)) (Nat.not_lt.mpr hle)
  | ignored hold =>
    cases h' with
    | taken k hmem' hle' hnewest' => exact absurd (hold k ((hsame k).mpr hmem')) (Nat.not_lt.mpr hle')
    | ignored hold' => rfl

theorem generation_le_sizedAll_append (count : Nat → Nat) (c : Cursor) (gs hs : List Nat) :
    (c.sizedAll count gs).generation ≤ (c.sizedAll count (gs ++ hs)).generation := by
  rw [sizedAll, sizedAll, List.foldl_append]
  exact (settlesOn_sizedAll count _ hs).generation_le

end Cursor

/-! ## Serving listeners -/

/-- The end of a run, as it is announced. How many moves its course has goes without saying: it belongs to
the generation. -/
structure Notice where
  generation : Nat
  identity : String
  problems : Nat

def Notice.event (count : Nat → Nat) (n : Notice) : Event :=
  .job (.processingFinished n.generation n.identity (count n.generation) n.problems)

namespace Session

/-- Listeners have been served with a finished course: the cursors that follow have taken its range. -/
structure Served (m g : Nat) (ls : List Listener) (s t : Session) : Prop where
  armed : t.armed = s.armed
  subscriptions : t.bus.subscriptions = s.bus.subscriptions
  size : t.cursors.size = s.cursors.size
  cursor : ∀ id, id < s.cursors.size →
    t.cursor id = if .follow id ∈ ls then (s.cursor id).sized m g else s.cursor id

variable {s t u : Session} {m g : Nat} {ls ls' : List Listener}

theorem Served.refl (s : Session) : s.Served m g [] s := ⟨rfl, rfl, rfl, fun _ _ => rfl⟩

theorem Served.append (h : s.Served m g ls t) (h' : t.Served m g ls' u) :
    s.Served m g (ls ++ ls') u where
  armed := h'.armed.trans h.armed
  subscriptions := h'.subscriptions.trans h.subscriptions
  size := h'.size.trans h.size
  cursor id hid := by
    rw [h'.cursor id (h.size ▸ hid), h.cursor id hid]
    by_cases hfirst : .follow id ∈ ls <;> by_cases hlater : .follow id ∈ ls' <;>
      simp [hfirst, hlater, Cursor.sized_sized]

theorem Served.followed {id : Nat} (h : s.Served m g ls t) (hf : s.Followed id) : t.Followed id := by
  rw [Followed, h.size, h.subscriptions]
  exact hf

end Session

namespace Step

open Session

variable {s : Session}

/-- A cursor is given a range while no reaction is to come. -/
theorem setRange_served (hs : s.armed = []) (id m g : Nat) :
    Leads s (setRange (fun inner => discard (deliver (fun _ _ => pure ()) (fun _ => pure ()) inner)) id m g)
      fun _ t => s.Served m g [.follow id] t := by
  simp only [setRange, leads_bind, leads_get]
  have hsized : (s.cursor id).sized m g = ((s.cursor id).setRange? m g).getD (s.cursor id) := rfl
  cases hrange : (s.cursor id).setRange? m g with
  | none =>
    rw [hrange, Option.getD_none] at hsized
    refine leads_pure.mpr ⟨rfl, rfl, rfl, fun other _ => ?_⟩
    by_cases ho : other = id
    · rw [ho, hsized, ite_self]
    · simp [ho]
  | some c =>
    rw [hrange, Option.getD_some] at hsized
    have hset : (s.setCursor id c).armed = [] := hs
    simp only [leads_bind, leads_modify]
    refine (leads_deliver_withEvent hset fun _ _ => rfl).mpr ⟨rfl, ?_, by simp, fun other hother => ?_⟩
    · rw [subscriptions_withEvent]
      rfl
    · rw [cursor_withEvent, cursor_setCursor]
      by_cases ho : other = id
      · subst ho
        simp [hother, hsized]
      · simp [ho]

/-- One listener. -/
theorem call_served (hs : s.armed = []) (g : Nat) (identity : String) (count problems : Nat) (l : Listener) :
    Leads s (call
        (followUp fun inner => discard (deliver (fun _ _ => pure ()) (fun _ => pure ()) inner))
        (fun _ => pure ()) (.job (.processingFinished g identity count problems)) l)
      fun _ t => s.Served (count - 1) g [l] t := by
  cases l with
  | journal book =>
    exact leads_modify.mpr ⟨rfl, rfl, rfl, fun id _ => by simp [note, cursor]⟩
  | follow id => exact setRange_served hs id (count - 1) g
  | reaction id =>
    have hnone : s.triggered? id (.job (.processingFinished g identity count problems)) = none := by
      simp [triggered?, hs]
    simp only [call, leads_bind, leads_get, hnone, leads_pure]
    exact ⟨rfl, rfl, rfl, fun id _ => by simp⟩

/-- All listeners, one after another. -/
theorem forM_served (hs : s.armed = []) (g : Nat) (identity : String) (count problems : Nat)
    (ls : List Listener) :
    Leads s (ls.forM (call
        (followUp fun inner => discard (deliver (fun _ _ => pure ()) (fun _ => pure ()) inner))
        (fun _ => pure ()) (.job (.processingFinished g identity count problems))))
      fun _ t => s.Served (count - 1) g ls t := by
  induction ls generalizing s with
  | nil => exact leads_pure.mpr (.refl s)
  | cons l ls ih =>
    refine leads_bind.mpr ((call_served hs g identity count problems l).mono fun _ t h => ?_)
    exact (ih (h.armed.trans hs)).mono fun _ u h' => h.append h'

/-- A finished course is announced while no reaction is to come. -/
theorem tell_served (hs : s.armed = []) (g : Nat) (identity : String) (count problems : Nat) :
    Leads s (tell (.job (.processingFinished g identity count problems))) fun _ t =>
      s.Served (count - 1) g (s.bus.matching (.job (.processingFinished g identity count problems))) t := by
  refine (leads_tell_deliver hs).mpr (leads_discard.mpr (leads_deliver.mpr ?_))
  have hrecord : Session.armed
      { s with bus := s.bus.record (.job (.processingFinished g identity count problems)) } = [] := hs
  refine (forM_served hrecord g identity count problems _).mono fun _ t h => ?_
  exact ⟨h.armed, h.subscriptions.trans (Bus.subscriptions_record s.bus _), h.size, h.cursor⟩

/-- The ends of runs are announced, one after another. -/
def inform (count : Nat → Nat) (notices : List Notice) : Step Unit :=
  notices.forM fun n => tell (n.event count)

variable {id : Nat}

/-- A cursor that follows takes the ranges as they are announced. -/
theorem inform_leads (hs : s.armed = []) (hf : s.Followed id) (count : Nat → Nat) (notices : List Notice) :
    Leads s (inform count notices) fun _ t =>
      t.cursor id = (s.cursor id).sizedAll count (notices.map Notice.generation) := by
  induction notices generalizing s with
  | nil => exact leads_pure.mpr rfl
  | cons n notices ih =>
    refine leads_bind.mpr ((tell_served hs n.generation n.identity (count n.generation) n.problems).mono
      fun _ t h => ?_)
    refine (ih (h.armed.trans hs) (h.followed hf)).mono fun _ u hu => ?_
    obtain ⟨hid, x, hx, hl, hfilter⟩ := hf
    have hmem : .follow id ∈ s.bus.matching (n.event count) := by
      refine List.mem_map.mpr ⟨x, List.mem_filter.mpr ⟨hx, ?_⟩, hl⟩
      rw [hfilter]
      rfl
    have hcursor : t.cursor id = (s.cursor id).sized (count n.generation - 1) n.generation :=
      (h.cursor id hid).trans (if_pos hmem)
    rw [hu, hcursor]
    rfl

end Step

/-! ## Order does not matter -/

namespace Session

open Step

/-- **Following does not depend on the order of announcements.** A cursor that follows settles on the newest
of the announced generations, if it is not older than its own. Any other way of announcing the same
generations leaves the same cursor, and on no way does the cursor's generation decrease. -/
theorem following_confluent (s : Session) (hs : s.armed = []) (id : Nat) (hf : s.Followed id)
    (count : Nat → Nat) (notices : List Notice) :
    ∃ d, (s.cursor id).SettlesOn count (notices.map Notice.generation) d ∧
      Leads s (inform count notices) (fun _ t => t.cursor id = d) ∧
      (∀ others : List Notice,
        (∀ g, g ∈ others.map Notice.generation ↔ g ∈ notices.map Notice.generation) →
          Leads s (inform count others) fun _ t => t.cursor id = d) ∧
      ∀ earlier later, notices = earlier ++ later →
        Leads s (inform count earlier) fun _ t =>
          (s.cursor id).generation ≤ (t.cursor id).generation ∧
            (t.cursor id).generation ≤ d.generation := by
  have hd := Cursor.settlesOn_sizedAll count (s.cursor id) (notices.map Notice.generation)
  refine ⟨_, hd, inform_leads hs hf count notices, fun others hsame => ?_, fun earlier later he => ?_⟩
  · refine (inform_leads hs hf count others).mono fun _ t ht => ?_
    exact ht.trans ((Cursor.settlesOn_sizedAll count _ _).unique hd hsame)
  · refine (inform_leads hs hf count earlier).mono fun _ t ht => ?_
    rw [ht, he, List.map_append]
    exact ⟨(Cursor.settlesOn_sizedAll count _ _).generation_le,
      Cursor.generation_le_sizedAll_append count _ _ _⟩

/-- Late and repeated announcements of three runs, to a cursor that stands on the second course. -/
theorem following_late_notices :
    let s : Session :=
      { setup := {}
        bus := { subscriptions := [⟨0, .categories [.job], .follow 0⟩] }
        cursors := #[⟨2, 4, true, 2⟩] }
    let count (g : Nat) := 10 * g
    let notice (g : Nat) : Notice := ⟨g, "a.nc", 0⟩
    Leads s (inform count [notice 1, notice 3, notice 2]) (fun _ t => t.cursor 0 = ⟨0, 29, true, 3⟩) ∧
      Leads s (inform count [notice 3, notice 2, notice 1, notice 3]) fun _ t =>
        t.cursor 0 = ⟨0, 29, true, 3⟩ := by
  intro s count notice
  have hf : s.Followed 0 := ⟨by decide, _, .head _, rfl, rfl⟩
  obtain ⟨d, -, hleads, hothers, -⟩ :=
    following_confluent s rfl 0 hf count [notice 1, notice 3, notice 2]
  have hfirst : Leads s (inform count [notice 1, notice 3, notice 2])
      (fun _ t => t.cursor 0 = ⟨0, 29, true, 3⟩) := by decide +kernel
  obtain ⟨_, t, -, hd, ht⟩ := hleads.and hfirst
  refine ⟨hfirst, (hothers _ fun g => ?_).mono fun _ u hu => hu.trans (hd.symm.trans ht)⟩
  simp [notice]
  omega

end Session

end Toolpath
