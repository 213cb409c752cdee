import Toolpath.Proofs.Machine.Effect
import Toolpath.Proofs.Timeline.Entries

/-!
# Courses as paths

Nothing but a motion that is listed moves the machine, so the moves that `run_pipeline` returns make one
unbroken path from the origin to where the machine stands at the end.

* `Path`: sound motions of which each starts where the one before it stops.
* `Timeline.entriesFrom_path`: the motions of a course lead from its first place to its last one.
* `Timeline.entriesFrom_within`, `Timeline.entriesFrom_sorted`: what a course brings forth stands on its
  lines, in their order.
* `Timeline.run_unbroken`: all of it, for the moves of a whole program.
-/

namespace Toolpath

/-! ## Paths -/

/-- Sound motions that lead from one place to another, each from where the one before it stops. -/
inductive Path : Position → List Motion → Position → Prop where
  | nil {p : Position} : Path p [] p
  | cons {r : Motion} {rs : List Motion} {q : Position} (hr : r.Sound) (h : Path r.stop rs q) :
    Path r.start (r :: rs) q

namespace Path

variable {p q u : Position} {rs ss : List Motion}

theorem append (h : Path p rs q) (h' : Path q ss u) : Path p (rs ++ ss) u := by
  induction h with
  | nil => exact h'
  | cons hr _ ih => exact .cons hr (ih h')

theorem sound (h : Path p rs q) : ∀ r ∈ rs, r.Sound := by
  induction h with
  | nil => exact fun r hr => absurd hr List.not_mem_nil
  | cons hr _ ih => exact List.forall_mem_cons.mpr ⟨hr, ih⟩

theorem start_head (h : Path p rs q) : ∀ r, rs.head? = some r → r.start = p := by
  intro r hr
  cases h with
  | nil => cases hr
  | cons _ _ =>
    cases hr
    rfl

theorem start_next (h : Path p rs q) (i : Nat) (hi : i + 1 < rs.length) :
    rs[i + 1].start = rs[i].stop := by
  induction h generalizing i with
  | nil => cases hi
  | @cons r rs q _ h ih =>
    cases i with
    | zero => exact h.start_head _ (List.head?_eq_getElem? ▸ List.getElem?_eq_getElem _)
    | succ i => exact ih i (Nat.lt_of_succ_lt_succ hi)

/-- A path ends where its last motion stops, and an empty one where it begins. -/
theorem stop_last (h : Path p rs q) : q = (rs.getLast?.map Motion.stop).getD p := by
  induction h with
  | nil => rfl
  | @cons r rs q _ _ ih =>
    rw [ih, List.getLast?_cons]
    cases rs.getLast? <;> rfl

end Path

/-! ## The path of a course -/

theorem motionsOf_append (xs ys : List Entry) : motionsOf (xs ++ ys) = motionsOf xs ++ motionsOf ys := by
  rw [motionsOf, List.filterMap_append, List.map_append, motionsOf, motionsOf]

theorem motionsOf_noted (problems : List Diagnostic) : motionsOf (problems.map .noted) = [] := by
  rw [motionsOf, List.filterMap_map]
  simp [Function.comp_def, Entry.motion?]

/-- Steps that move along what they emit make a run that does so. -/
theorem emitAll_path {σ α : Type} {step : σ → α → σ × List Entry} (place : σ → Position)
    (hstep : ∀ s x, Path (place s) (motionsOf (step s x).2) (place (step s x).1)) (s : σ)
    (items : List α) :
    Path (place s) (motionsOf (emitAll step s items).2.toList) (place (emitAll step s items).1) := by
  refine emitAll_rel (R := fun s out t => Path (place s) (motionsOf out) (place t)) ?_ ?_ s items ?_
  · exact fun s => .nil
  · intro s xs t ys u hx hy
    rw [motionsOf_append]
    exact hx.append hy
  · exact fun s x _ => hstep s x

namespace LineProgress

theorem motionsOf_warnings (s : LineProgress) (line : Nat) (action : Action) :
    motionsOf (s.warnings line action) = [] := by
  unfold warnings
  split <;> rfl

/-- A refused motion may take back a motion code, but it never moves the machine. -/
theorem afterRefusal_position (s : LineProgress) (action : Action) :
    (s.afterRefusal action).position = s.progress.machine.position := by
  unfold afterRefusal
  split <;> rfl

/-- A command moves the machine along the motion that it emits. -/
theorem command_path (setup : Setup) (line : Nat) (s : LineProgress) (action : Action) :
    Path s.progress.machine.position (motionsOf (s.command setup line action).2)
      (s.command setup line action).1.progress.machine.position := by
  cases h : s.progress.machine.apply setup action with
  | error cause =>
    rw [command_of_error _ h, motionsOf_append, motionsOf_warnings]
    have hp := s.afterRefusal_position action
    exact hp ▸ .nil
  | ok done =>
    obtain ⟨machine, motion⟩ := done
    rw [command_of_ok _ h, motionsOf_append, motionsOf_warnings]
    cases Machine.apply_effect h with
    | stay hp => exact hp ▸ .nil
    | @move r hs hr =>
      have hpath : Path r.start [r] r.stop := .cons hr .nil
      rw [hs, ← hr.position] at hpath
      exact hpath

end LineProgress

theorem Progress.line_path (setup : Setup) (p : Progress) (numbered : String × Nat) :
    Path p.machine.position (motionsOf (p.line setup numbered).2)
      (p.line setup numbered).1.machine.position := by
  have hc : Path p.machine.position (motionsOf (p.commands setup numbered).2.toList)
      (p.commands setup numbered).1.progress.machine.position := by
    unfold Progress.commands
    exact emitAll_path (fun s : LineProgress => s.progress.machine.position)
      (fun s action => s.command_path setup numbered.2 action) { progress := p } _
  rw [line_fst, line_snd, motionsOf_append, motionsOf_noted, List.nil_append]
  exact hc

/-- **The path of a course.** The motions of lines lead from where the machine stands before them to
where it stands after them. -/
theorem Timeline.entriesFrom_path (setup : Setup) (p : Progress) (first : Nat) (lines : List String) :
    Path p.machine.position (motionsOf (entriesFrom setup p first lines).2.toList)
      (entriesFrom setup p first lines).1.machine.position := by
  unfold entriesFrom
  exact emitAll_path (fun q : Progress => q.machine.position)
    (fun q numbered => q.line_path setup numbered) p _

/-! ## The lines of a course -/

namespace Timeline

/-- A course of lines is that of the first line, then that of the others. -/
theorem entriesFrom_cons (setup : Setup) (p : Progress) (first : Nat) (text : String)
    (lines : List String) :
    (entriesFrom setup p first (text :: lines)).2.toList =
      (p.line setup (text, first)).2 ++
        (entriesFrom setup (p.line setup (text, first)).1 (first + 1) lines).2.toList := by
  unfold entriesFrom
  rw [List.zipIdx_cons, emitAll_cons, Array.toList_append]

/-- What a course brings forth stands on one of its lines. -/
theorem entriesFrom_within (setup : Setup) (p : Progress) (first : Nat) (lines : List String) :
    ∀ e ∈ (entriesFrom setup p first lines).2.toList,
      ∃ n, e.line? = some n ∧ first ≤ n ∧ n < first + lines.length := by
  induction lines generalizing p first with
  | nil => exact fun e he => absurd he List.not_mem_nil
  | cons text lines ih =>
    intro e he
    rw [entriesFrom_cons, List.mem_append] at he
    rw [List.length_cons]
    rcases he with he | he
    · exact ⟨first, p.line_of_mem setup (text, first) e he, by omega, by omega⟩
    · obtain ⟨n, hn, hl, hu⟩ := ih _ _ e he
      exact ⟨n, hn, by omega, by omega⟩

/-- What a course brings forth comes in the order of its lines. -/
theorem entriesFrom_sorted (setup : Setup) (p : Progress) (first : Nat) (lines : List String) :
    ((entriesFrom setup p first lines).2.toList.filterMap Entry.line?).Pairwise (· ≤ ·) := by
  induction lines generalizing p first with
  | nil => exact .nil
  | cons text lines ih =>
    -- the entries of the first line all stand on it, and the others below it
    have hfirst : ∀ n ∈ ((p.line setup (text, first)).2.filterMap Entry.line?), n = first := by
      intro n hn
      obtain ⟨e, he, hn⟩ := List.mem_filterMap.mp hn
      rw [p.line_of_mem setup (text, first) e he] at hn
      exact (Option.some.inj hn).symm
    rw [entriesFrom_cons, List.filterMap_append, List.pairwise_append]
    refine ⟨List.pairwise_of_forall_mem_list ?_, ih _ _, ?_⟩
    · intro n hn k hk
      exact Nat.le_of_eq ((hfirst n hn).trans (hfirst k hk).symm)
    · intro n hn k hk
      obtain ⟨e, he, hk⟩ := List.mem_filterMap.mp hk
      obtain ⟨l, hl, hle, -⟩ := entriesFrom_within setup _ _ lines e he
      have hn := hfirst n hn
      have hk := Option.some.inj (hl.symm.trans hk)
      omega

/-- The lines of motions are among those of all entries. -/
theorem lines_motionsOf_sublist (entries : List Entry) :
    ((entries.filterMap Entry.motion?).map Prod.fst).Sublist (entries.filterMap Entry.line?) := by
  induction entries with
  | nil => exact .slnil
  | cons e entries ih =>
    cases e with
    | moved line motion => exact ih.cons_cons line
    | noted problem =>
      cases h : problem.line with
      | none =>
        rw [List.filterMap_cons_none (by rfl), List.filterMap_cons_none (by exact h)]
        exact ih
      | some n =>
        rw [List.filterMap_cons_none (by rfl), List.filterMap_cons_some (by exact h)]
        exact ih.cons n

/-! ## Whole programs -/

/-- A timeline whose moves are one path through a program, from the origin to where the machine stands
at the end. -/
structure Unbroken (program : Program) (t : Timeline) : Prop where
  index : ∀ i (hi : i < t.moves.length), t.moves[i].index = i
  first : ∀ (h : 0 < t.moves.length), t.moves[0].start = .origin
  next : ∀ i (hi : i + 1 < t.moves.length), t.moves[i + 1].start = t.moves[i].stop
  last : t.final.position = (t.moves.getLast?.map Move.stop).getD .origin
  line_lt : ∀ m ∈ t.moves, m.line < program.lineCount
  line_le : ∀ i j (hj : j < t.moves.length) (hij : i ≤ j), t.moves[i].line ≤ t.moves[j].line
  position : ∀ m ∈ t.moves, m.after.position = m.stop
  mode : ∀ m ∈ t.moves, m.after.motionMode = m.kind
  arc_iff : ∀ m ∈ t.moves, m.arc.isSome ↔ m.kind.isArc
  plane : ∀ m ∈ t.moves, ∀ a, m.arc = some a → a.plane = m.after.plane
  level : ∀ m ∈ t.moves, ∀ a, m.arc = some a →
    ∀ axis, axis ≠ a.plane.first → axis ≠ a.plane.second → a.center.get axis = m.start.get axis

theorem ofLines_path (setup : Setup) (mint : Nat → MoveId) (lines : List String) :
    Path .origin ((ofLines setup mint lines).moves.map Move.motion)
      (ofLines setup mint lines).final.position := by
  simp only [ofLines, movesOf_motion]
  exact entriesFrom_path setup { machine := .ofSetup setup } 0 lines

theorem ofLines_sublist (setup : Setup) (mint : Nat → MoveId) (lines : List String) :
    ((ofLines setup mint lines).moves.map Move.line).Sublist
      ((entriesFrom setup { machine := .ofSetup setup } 0 lines).2.toList.filterMap Entry.line?) := by
  simp only [ofLines, movesOf_line]
  exact lines_motionsOf_sublist _

theorem ofLines_index (setup : Setup) (mint : Nat → MoveId) (lines : List String) (i : Nat)
    (hi : i < (ofLines setup mint lines).moves.length) :
    (ofLines setup mint lines).moves[i].index = i := by
  simp only [ofLines, movesOf, List.getElem_mapIdx]

theorem ofLines_line_lt (setup : Setup) (mint : Nat → MoveId) (lines : List String) :
    ∀ m ∈ (ofLines setup mint lines).moves, m.line < lines.length := by
  intro m hm
  have hl := (ofLines_sublist setup mint lines).subset (List.mem_map_of_mem hm)
  obtain ⟨e, he, hl⟩ := List.mem_filterMap.mp hl
  obtain ⟨n, hn, -, hlt⟩ := entriesFrom_within setup _ 0 lines e he
  have := Option.some.inj (hn.symm.trans hl)
  omega

theorem ofLines_line_le (setup : Setup) (mint : Nat → MoveId) (lines : List String) (i j : Nat)
    (hj : j < (ofLines setup mint lines).moves.length) (hij : i ≤ j) :
    (ofLines setup mint lines).moves[i].line ≤ (ofLines setup mint lines).moves[j].line := by
  have hs := (entriesFrom_sorted setup _ 0 lines).sublist (ofLines_sublist setup mint lines)
  rw [List.pairwise_map] at hs
  rcases Nat.eq_or_lt_of_le hij with rfl | hlt
  · exact Nat.le_refl _
  · exact List.pairwise_iff_getElem.mp hs i j (by omega) hj hlt

/-- **Timelines are paths.** -/
theorem run_unbroken (setup : Setup) (mint : Nat → MoveId) (program : Program) :
    ∃ t, run setup mint (fun _ => false) program = .ok t ∧ t.Unbroken program := by
  have hpath := ofLines_path setup mint program.lines
  have hsound : ∀ m ∈ (ofLines setup mint program.lines).moves, m.motion.Sound :=
    fun m hm => hpath.sound m.motion (List.mem_map_of_mem hm)
  refine ⟨_, run_unset setup mint program, ?_⟩
  generalize hq : ofLines setup mint program.lines = t at hpath hsound
  exact
    { index := hq ▸ ofLines_index setup mint program.lines
      first := fun h => hpath.start_head _ (by simp [List.head?_eq_getElem?, h])
      next := by
        intro i hi
        have := hpath.start_next i (by rwa [List.length_map])
        rwa [List.getElem_map, List.getElem_map] at this
      last := by
        rw [hpath.stop_last, List.getLast?_map, Option.map_map]
        rfl
      line_lt := hq ▸ ofLines_line_lt setup mint program.lines
      line_le := hq ▸ ofLines_line_le setup mint program.lines
      position := fun m hm => (hsound m hm).position
      mode := fun m hm => (hsound m hm).mode
      arc_iff := fun m hm => (hsound m hm).arc_iff
      plane := fun m hm => (hsound m hm).plane
      level := fun m hm => (hsound m hm).level }

end Timeline

end Toolpath
