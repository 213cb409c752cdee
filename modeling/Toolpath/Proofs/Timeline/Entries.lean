import Toolpath.Timeline

/-!
# What lines bring forth

Laws of the steps that a course is made of, for all that is proved of whole courses.

* `emitAll_rel`: what holds of every step, and of two runs together if it holds of both, holds of every
  run. Facts about whole courses are proved of one command and lifted twice by it.
* `emitAll_map`: a step that only renames what another step emits.
* `Progress.line_renumber`: a line under another number brings forth the same, under that number.
* `Progress.line_of_mem`: what a line brings forth stands on that line.
-/

namespace Toolpath

/-! ## Runs of a step -/

section Emit

variable {σ α β ε δ : Type}

/-- **From steps to runs.** -/
theorem emitAll_rel {step : σ → α → σ × List ε} {R : σ → List ε → σ → Prop}
    (hnil : ∀ s, R s [] s) (happend : ∀ s xs t ys u, R s xs t → R t ys u → R s (xs ++ ys) u)
    (s : σ) (items : List α) (hstep : ∀ s, ∀ x ∈ items, R s (step s x).2 (step s x).1) :
    R s (emitAll step s items).2.toList (emitAll step s items).1 := by
  induction items generalizing s with
  | nil => exact hnil s
  | cons x items ih =>
    rw [emitAll_cons, Array.toList_append]
    exact happend _ _ _ _ _ (hstep s x List.mem_cons_self)
      (ih _ fun t y hy => hstep t y (List.mem_cons_of_mem x hy))

/-- What holds of all that steps emit holds of all that a run emits. -/
theorem emitAll_forall {step : σ → α → σ × List ε} {P : ε → Prop} (s : σ) (items : List α)
    (hstep : ∀ s, ∀ x ∈ items, ∀ e ∈ (step s x).2, P e) :
    ∀ e ∈ (emitAll step s items).2.toList, P e := by
  refine emitAll_rel (R := fun _ out _ => ∀ e ∈ out, P e) ?_ ?_ s items hstep
  · intro s e he
    cases he
  · intro s xs t ys u hx hy e he
    rcases List.mem_append.mp he with he | he
    · exact hx e he
    · exact hy e he

/-- A step that renames what another one emits, taken over renamed items. -/
theorem emitAll_map {step : σ → α → σ × List ε} {other : σ → β → σ × List δ} (f : ε → δ) (g : α → β)
    (h : ∀ s x, other s (g x) = ((step s x).1, (step s x).2.map f)) (s : σ) (items : List α) :
    emitAll other s (items.map g) =
      ((emitAll step s items).1, (emitAll step s items).2.map f) := by
  induction items generalizing s with
  | nil => simp
  | cons x items ih =>
    rw [List.map_cons, emitAll_cons, emitAll_cons, h, ih]
    simp

end Emit

/-! ## One command and one line -/

namespace LineProgress

/-- What is noted before a command is carried out. -/
def warnings (s : LineProgress) (line : Nat) (action : Action) : List Entry :=
  if s.firstAfterEnd action then [.noted (.onLine line .motionAfterEnd)] else []

variable {setup : Setup} {s : LineProgress} {action : Action}

theorem command_of_ok (line : Nat) {machine : Machine} {motion : Option Motion}
    (h : s.progress.machine.apply setup action = .ok (machine, motion)) :
    s.command setup line action =
      (⟨{ machine, warned := s.progress.warned || s.firstAfterEnd action },
        if action.isMotion then none else s.fallback action⟩,
        s.warnings line action ++ motion.toList.map (.moved line)) := by
  simp only [command, h, warnings]

theorem command_of_error (line : Nat) {cause : MotionError}
    (h : s.progress.machine.apply setup action = .error cause) :
    s.command setup line action =
      (⟨{ machine := s.afterRefusal action, warned := s.progress.warned || s.firstAfterEnd action },
        if action.isMotion then none else s.fallback action⟩,
        s.warnings line action ++ [.noted (.onLine line (.motion cause))]) := by
  simp only [command, h, warnings]

end LineProgress

namespace Progress

/-- The commands of a line carried out, from the line's beginning. -/
def commands (setup : Setup) (p : Progress) (numbered : String × Nat) : LineProgress × Array Entry :=
  emitAll (LineProgress.command setup numbered.2) { progress := p }
    ((Block.ofLine numbered.2 p.machine.motionMode numbered.1).commands.map Command.action)

theorem line_eq (setup : Setup) (p : Progress) (numbered : String × Nat) :
    p.line setup numbered =
      ((p.commands setup numbered).1.progress,
        (Block.ofLine numbered.2 p.machine.motionMode numbered.1).diagnostics.map .noted ++
          (p.commands setup numbered).2.toList) := by
  simp only [line, commands]

theorem line_fst (setup : Setup) (p : Progress) (numbered : String × Nat) :
    (p.line setup numbered).1 = (p.commands setup numbered).1.progress := by
  rw [line_eq]

theorem line_snd (setup : Setup) (p : Progress) (numbered : String × Nat) :
    (p.line setup numbered).2 =
      (Block.ofLine numbered.2 p.machine.motionMode numbered.1).diagnostics.map .noted ++
        (p.commands setup numbered).2.toList := by
  rw [line_eq]

end Progress

/-! ## Renumbered lines -/

/-- A problem further down by some lines. -/
def Diagnostic.lower (k : Nat) (d : Diagnostic) : Diagnostic := { d with line := d.line.map (k + ·) }

/-- An entry further down by some lines. -/
def Entry.lower (k : Nat) : Entry → Entry
  | .moved line motion => .moved (k + line) motion
  | .noted problem => .noted (problem.lower k)

@[simp] theorem Diagnostic.lower_onLine (k line : Nat) (cause : Cause) :
    (Diagnostic.onLine line cause).lower k = .onLine (k + line) cause := rfl

/-- The commands of a line do not depend on its number. -/
theorem Block.actions_ofLine (line other : Nat) (mode : MotionKind) (text : String) :
    (Block.ofLine line mode text).commands.map Command.action =
      (Block.ofLine other mode text).commands.map Command.action := by
  simp [Block.ofLine, Block.ofTokens, Function.comp_def]

theorem Block.diagnostics_ofLine (k line : Nat) (mode : MotionKind) (text : String) :
    (Block.ofLine (k + line) mode text).diagnostics =
      (Block.ofLine line mode text).diagnostics.map (Diagnostic.lower k) := by
  simp [Block.ofLine, Block.ofTokens, Function.comp_def]

theorem LineProgress.warnings_renumber (s : LineProgress) (k line : Nat) (action : Action) :
    s.warnings (k + line) action = (s.warnings line action).map (Entry.lower k) := by
  unfold LineProgress.warnings
  split <;> rfl

theorem LineProgress.command_renumber (setup : Setup) (k line : Nat) (s : LineProgress)
    (action : Action) :
    s.command setup (k + line) action =
      ((s.command setup line action).1, (s.command setup line action).2.map (Entry.lower k)) := by
  cases h : s.progress.machine.apply setup action with
  | ok done =>
    rw [command_of_ok _ h, command_of_ok _ h, warnings_renumber, List.map_append, List.map_map]
    rfl
  | error cause =>
    rw [command_of_error _ h, command_of_error _ h, warnings_renumber, List.map_append]
    rfl

/-- The number of a line only shows in what the line brings forth. -/
theorem Progress.line_renumber (setup : Setup) (p : Progress) (k : Nat) (numbered : String × Nat) :
    p.line setup (numbered.1, k + numbered.2) =
      ((p.line setup numbered).1, (p.line setup numbered).2.map (Entry.lower k)) := by
  have hc : p.commands setup (numbered.1, k + numbered.2) =
      ((p.commands setup numbered).1, (p.commands setup numbered).2.map (Entry.lower k)) := by
    unfold Progress.commands
    rw [Block.actions_ofLine (k + numbered.2) numbered.2, ← emitAll_map (Entry.lower k) id
      (LineProgress.command_renumber setup k numbered.2), List.map_id]
  rw [line_eq, line_eq, hc, Block.diagnostics_ofLine, List.map_append, List.map_map, List.map_map,
    Array.toList_map]
  simp only [Function.comp_def, Entry.lower]

/-! ## The lines of entries -/

/-- The line that an entry stands on. -/
def Entry.line? : Entry → Option Nat
  | .moved line _ => some line
  | .noted problem => problem.line

theorem LineProgress.warnings_on_line (s : LineProgress) (line : Nat) (action : Action) :
    ∀ e ∈ s.warnings line action, e.line? = some line := by
  intro e he
  unfold LineProgress.warnings at he
  split at he
  · rw [List.mem_singleton.mp he]
    rfl
  · cases he

theorem LineProgress.command_on_line (setup : Setup) (line : Nat) (s : LineProgress) (action : Action) :
    ∀ e ∈ (s.command setup line action).2, e.line? = some line := by
  intro e he
  cases h : s.progress.machine.apply setup action with
  | ok done =>
    rw [command_of_ok _ h, List.mem_append] at he
    rcases he with he | he
    · exact s.warnings_on_line line action e he
    · obtain ⟨motion, -, rfl⟩ := List.mem_map.mp he
      rfl
  | error cause =>
    rw [command_of_error _ h, List.mem_append] at he
    rcases he with he | he
    · exact s.warnings_on_line line action e he
    · rw [List.mem_singleton.mp he]
      rfl

theorem Block.diagnostics_on_line (line : Nat) (mode : MotionKind) (text : String) :
    ∀ d ∈ (Block.ofLine line mode text).diagnostics, d.line = some line := by
  intro d hd
  obtain ⟨cause, -, rfl⟩ := List.mem_map.mp hd
  rfl

/-- What a line brings forth stands on that line. -/
theorem Progress.line_of_mem (setup : Setup) (p : Progress) (numbered : String × Nat) :
    ∀ e ∈ (p.line setup numbered).2, e.line? = some numbered.2 := by
  intro e he
  rw [line_snd, List.mem_append] at he
  rcases he with he | he
  · obtain ⟨d, hd, rfl⟩ := List.mem_map.mp he
    exact Block.diagnostics_on_line _ _ _ d hd
  · rw [commands] at he
    exact emitAll_forall _ _ (fun s action _ => s.command_on_line setup numbered.2 action) e he

/-! ## Moves -/

/-- The motions among entries, in order. -/
def motionsOf (entries : List Entry) : List Motion := (entries.filterMap Entry.motion?).map Prod.snd

namespace Timeline

/-- A course that nobody cancels comes to its end. -/
theorem run_unset (setup : Setup) (mint : Nat → MoveId) (program : Program) :
    run setup mint (fun _ => false) program = .ok (ofLines setup mint program.lines) := by
  simp [run]

theorem run_ok {setup : Setup} {mint : Nat → MoveId} {seen : Nat → Bool} {program : Program}
    {timeline : Timeline} (h : run setup mint seen program = .ok timeline) :
    timeline = ofLines setup mint program.lines := by
  unfold run at h
  split at h <;> cases h
  rfl

theorem movesOf_motion (mint : Nat → MoveId) (entries : Array Entry) :
    (movesOf mint entries).map Move.motion = motionsOf entries.toList := by
  apply List.ext_getElem?
  intro i
  simp only [movesOf, motionsOf, List.getElem?_map, List.getElem?_mapIdx, Option.map_map,
    Function.comp_def]

theorem movesOf_line (mint : Nat → MoveId) (entries : Array Entry) :
    (movesOf mint entries).map Move.line = (entries.toList.filterMap Entry.motion?).map Prod.fst := by
  apply List.ext_getElem?
  intro i
  simp only [movesOf, List.getElem?_map, List.getElem?_mapIdx, Option.map_map, Function.comp_def]

end Timeline

end Toolpath
