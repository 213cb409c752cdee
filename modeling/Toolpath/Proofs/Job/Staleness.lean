import Toolpath.Proofs.Job.Publication

/-!
# Stale selection tables

`SelectionIndex.check` compares the generation of the tables with `live_generation` and never looks at
the job. That the tables answer exactly as long as their course is published depends on every turn
keeping the live generation in step, and on no generation ever coming back.

* `SelectionIndex.StaleIff`: every look-up is refused as stale exactly under a condition.
* `JobSystem.Shows`: the job shows the course of a generation.
* `JobSystem.Kept`: the invariant of a generation that was published: it is shown until a newer one takes
  its place. It outlives every change (`Change.kept`), so it holds of all that was ever published
  (`kept_of_mem`).
* `JobSystem.lookups_stale_iff`: exactness and permanence, for every sequence of turns.
-/

namespace Toolpath

namespace SelectionIndex

/-- Every look-up through the tables is refused as stale exactly if `p` holds, and then it names both
generations. -/
structure StaleIff (t : SelectionIndex) (live : Nat) (p : Prop) : Prop where
  moveAt : ∀ index own current,
    t.moveAt live index = .error (.stale own current) ↔ p ∧ own = t.generation ∧ current = live
  indexOf : ∀ id own current,
    t.indexOf live id = .error (.stale own current) ↔ p ∧ own = t.generation ∧ current = live
  lineOf : ∀ index own current,
    t.lineOf live index = .error (.stale own current) ↔ p ∧ own = t.generation ∧ current = live
  movesOnLine : ∀ line own current,
    t.movesOnLine live line = .error (.stale own current) ↔ p ∧ own = t.generation ∧ current = live

variable {t : SelectionIndex} {live : Nat}

theorem StaleIff.congr {p q : Prop} (h : p ↔ q) (hs : t.StaleIff live p) : t.StaleIff live q :=
  propext h ▸ hs

theorem check_of_eq (h : live = t.generation) : t.check live = .ok () := by
  simp [check, isStale, h]

theorem check_of_ne (h : live ≠ t.generation) :
    t.check live = .error (.stale t.generation live) := by
  simp [check, isStale, h]

/-- Two generations in the message of a refused look-up. -/
theorem stale_error_iff {α : Type} {own current : Nat} :
    (Except.error (.stale t.generation live) : Except IndexError α) = .error (.stale own current) ↔
      own = t.generation ∧ current = live := by
  simp [eq_comm]

/-- A look-up that was not refused beforehand is never refused as stale later on. -/
theorem staleIff_of_eq (h : live = t.generation) : t.StaleIff live False where
  moveAt index own current := by
    simp only [moveAt, check_of_eq h, false_and, iff_false]
    cases t.moves[index]? <;> intro hs <;> cases hs
  indexOf id own current := by
    simp only [indexOf, check_of_eq h, false_and, iff_false]
    cases t.byId[id]? <;> intro hs <;> cases hs
  lineOf index own current := by
    simp only [lineOf, moveAt, check_of_eq h, false_and, iff_false]
    cases t.moves[index]? <;> intro hs <;> cases hs
  movesOnLine line own current := by
    simp only [movesOnLine, check_of_eq h, false_and, iff_false]
    intro hs
    cases hs

theorem staleIff_of_ne (h : live ≠ t.generation) : t.StaleIff live True where
  moveAt index own current := by
    simp only [moveAt, check_of_ne h, true_and]
    exact stale_error_iff
  indexOf id own current := by
    simp only [indexOf, check_of_ne h, true_and]
    exact stale_error_iff
  lineOf index own current := by
    simp only [lineOf, moveAt, check_of_ne h, true_and]
    exact stale_error_iff
  movesOnLine line own current := by
    simp only [movesOnLine, check_of_ne h, true_and]
    exact stale_error_iff

theorem staleIff (t : SelectionIndex) (live : Nat) : t.StaleIff live (live ≠ t.generation) := by
  by_cases h : live = t.generation
  · exact (staleIff_of_eq h).congr ⟨False.elim, fun hne => hne h⟩
  · exact (staleIff_of_ne h).congr ⟨fun _ => h, fun _ => trivial⟩

end SelectionIndex

namespace JobSystem

/-- The job shows the course of a generation. -/
def Shows (w : JobSystem) (g : Nat) : Prop := ∃ s, w.job.snapshot = some s ∧ s.generation = g

/-- A generation that was published: it is shown as long as it is the newest one. -/
def Kept (g : Nat) (w : JobSystem) : Prop :=
  g ≤ w.job.generation ∧ (w.job.generation = g → w.Shows g)

/-- What is published carries the newest generation, and so do its tables. -/
theorem Change.generation_of_mem {w v : JobSystem} {out : List Snapshot} (hc : Change w v out) :
    ∀ s ∈ out, s.generation = v.job.generation ∧ s.index.generation = s.generation := by
  cases hc with
  | publish run timeline hw hg hfree =>
    intro s hs
    obtain rfl := List.mem_singleton.mp hs
    exact ⟨hg.symm, rfl⟩
  | _ =>
    intro s hs
    cases hs

/-- No change takes a course away without counting a new generation. -/
theorem Change.kept {g : Nat} {w v : JobSystem} {out : List Snapshot} (hc : Change w v out)
    (hk : w.Kept g) : v.Kept g := by
  refine ⟨Nat.le_trans hk.1 hc.generation_le, fun hv => ?_⟩
  have hle := hk.1
  cases hc with
  | begin program | reset | failUnreadable identity reason =>
    -- the new generation is another one
    simp only [Job.supersede] at hv
    omega
  | publish run timeline hw hg hfree => exact ⟨_, rfl, hg.symm.trans hv⟩
  | _ => exact hk.2 hv

theorem Kept.through (setup : Setup) {g : Nat} {w : JobSystem} (hk : w.Kept g) (turns : List Turn) :
    (w.through setup turns).Kept g :=
  through_keeps setup (fun _ _ _ hc => hc.kept) hk turns

/-- All that was ever published is kept. -/
theorem kept_of_mem (setup : Setup) (w : JobSystem) (turns : List Turn) :
    ∀ s ∈ w.publications setup turns,
      (w.through setup turns).Kept s.generation ∧ s.index.generation = s.generation := by
  induction turns generalizing w with
  | nil =>
    intro s hs
    cases hs
  | cons turn turns ih =>
    intro s hs
    rw [publications_cons, List.mem_append] at hs
    rw [through_cons]
    rcases hs with hs | hs
    · have hc := take_change setup w turn
      obtain ⟨hg, hi⟩ := hc.generation_of_mem s hs
      have hk : (w.take setup turn).1.Kept s.generation :=
        ⟨Nat.le_of_eq hg, fun _ => ⟨s, (hc.snapshot s).1 hs, rfl⟩⟩
      exact ⟨hk.through setup turns, hi⟩
    · exact ih _ s hs

/-- A kept generation is shown exactly if look-ups are answered under it. -/
theorem Kept.shows_iff {g : Nat} {w : JobSystem} (hk : w.Kept g) (h : w.Sound) :
    w.Shows g ↔ w.job.live = g := by
  constructor
  · rintro ⟨s, hs, rfl⟩
    exact ((h.fits.coherent h.live).snapshot s hs).1.symm
  · intro hl
    exact hk.2 (h.live.symm.trans hl)

/-- A kept generation that is not shown was replaced by a newer one. -/
theorem Kept.lt_of_not_shows {g : Nat} {w : JobSystem} (hk : w.Kept g) (hn : ¬ w.Shows g) :
    g < w.job.generation :=
  Nat.lt_of_le_of_ne hk.1 fun he => hn (hk.2 he.symm)

/-- **Tables answer exactly as long as their course is shown.** Whatever turns were taken since a course
was published, every look-up through its tables is refused as stale exactly if the job does not show
that generation; and from then on no turn makes the job show it again. -/
theorem lookups_stale_iff (setup : Setup) (turns : List Turn) :
    ∀ s ∈ publications setup {} turns,
      s.index.generation = s.generation ∧
      s.index.StaleIff (after setup turns).job.live (¬ (after setup turns).Shows s.generation) ∧
      (¬ (after setup turns).Shows s.generation → ∀ later,
        ¬ (after setup (turns ++ later)).Shows s.generation ∧
        s.index.StaleIff (after setup (turns ++ later)).job.live True) := by
  intro s hs
  obtain ⟨hk, hi⟩ := kept_of_mem setup {} turns s hs
  have hk : (after setup turns).Kept s.generation := hk
  refine ⟨hi, ?_, fun hn later => ?_⟩
  · refine (s.index.staleIff _).congr ?_
    rw [hi, hk.shows_iff (after_sound setup turns)]
  · -- generations only grow, so the replaced one does not come back
    have hlt : s.generation < (after setup (turns ++ later)).job.generation := by
      rw [after_append]
      exact Nat.lt_of_lt_of_le (hk.lt_of_not_shows hn) (generation_le_through setup _ later)
    have hsound := after_sound setup (turns ++ later)
    have hne : (after setup (turns ++ later)).job.live ≠ s.generation := by
      rw [hsound.live]
      exact Nat.ne_of_gt hlt
    refine ⟨fun hshows => hne ?_, SelectionIndex.staleIff_of_ne (hi ▸ hne)⟩
    have hlater : (after setup (turns ++ later)).Kept s.generation := by
      rw [after_append]
      exact hk.through setup later
    exact (hlater.shows_iff hsound).mp hshows

/-- A course is published and the program is loaded again: the tables of the first course are stale at
once, and they stay so when the second course is published. -/
theorem lookups_stale_after_reload :
    let first : Run := ⟨1, ⟨"part.nc", "G0 X1"⟩⟩
    let second : Run := { first with generation := 2 }
    let finish (run : Run) : Turn := .finish run (MoveId.mint run.generation) fun _ => false
    let turns : List Turn := [.begin first.program, .start first, finish first, .begin first.program]
    let s := Snapshot.ofTimeline 1 first.program
      (Timeline.ofLines {} (MoveId.mint 1) first.program.lines)
    s ∈ publications {} {} turns ∧ ¬ (after {} turns).Shows 1 ∧
      s.index.StaleIff (after {} (turns ++ [.start second, finish second])).job.live True := by
  intro first second finish turns s
  have hs : s ∈ publications {} {} turns := by
    have hw : first ∈
        ((({} : JobSystem).take {} (.begin first.program)).1.take {} (.start first)).1.working := by
      decide
    have hrun : Timeline.run {} (MoveId.mint 1) (fun _ => false) first.program =
        .ok (Timeline.ofLines {} (MoveId.mint 1) first.program.lines) := by
      simp [Timeline.run]
    rw [publications_cons, publications_cons, publications_cons]
    refine List.mem_append_right _ (List.mem_append_right _ (List.mem_append_left _ ?_))
    exact (mem_finish_iff hw s).mpr ⟨by decide, by decide, _, hrun, rfl⟩
  have hn : ¬ (after {} turns).Shows 1 := by
    rintro ⟨other, ho, -⟩
    have hnone : (after {} turns).job.snapshot = none := rfl
    rw [hnone] at ho
    cases ho
  obtain ⟨-, -, hforever⟩ := lookups_stale_iff {} turns s hs
  exact ⟨hs, hn, (hforever hn [.start second, finish second]).2⟩

end JobSystem

end Toolpath
