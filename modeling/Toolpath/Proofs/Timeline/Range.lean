import Toolpath.Proofs.Machine.Range
import Toolpath.Proofs.Timeline.Chain

/-!
# The range of a program

What every command keeps true of the machine is true of all machines that a program passes through: a
refused command touches nothing but the motion mode.

* `Keeps`, `Timeline.ofLines_keeps`: from one command to a whole program.
* `Timeline.run_inRange`: the range of every machine.
-/

namespace Toolpath

/-! ## From commands to programs -/

section Keeps

variable {setup : Setup} {I : Machine → Prop} {P : Motion → Prop}

/-- What commands with usable numbers keep true of the machine, and what they make true of motions. -/
structure Keeps (setup : Setup) (I : Machine → Prop) (P : Motion → Prop) : Prop where
  apply : ∀ {m m' : Machine} {action : Action} {motion : Option Motion}, I m → action.InRange →
    m.apply setup action = .ok (m', motion) → I m' ∧ ∀ r ∈ motion, P r
  withMode : ∀ {m : Machine} (mode : MotionKind), I m → I { m with motionMode := mode }

theorem Keeps.afterRefusal (hk : Keeps setup I P) (s : LineProgress) (action : Action)
    (hs : I s.progress.machine) : I (s.afterRefusal action) := by
  unfold LineProgress.afterRefusal
  split
  · exact hk.withMode _ hs
  · exact hs

theorem Keeps.command (hk : Keeps setup I P) (line : Nat) (s : LineProgress) {action : Action}
    (ha : action.InRange) (hs : I s.progress.machine) :
    I (s.command setup line action).1.progress.machine ∧
      ∀ r ∈ motionsOf (s.command setup line action).2, P r := by
  cases h : s.progress.machine.apply setup action with
  | error cause =>
    rw [LineProgress.command_of_error _ h, motionsOf_append, LineProgress.motionsOf_warnings]
    exact ⟨hk.afterRefusal s action hs, fun r hr => absurd hr List.not_mem_nil⟩
  | ok done =>
    obtain ⟨machine, motion⟩ := done
    obtain ⟨hm, hr⟩ := hk.apply hs ha h
    rw [LineProgress.command_of_ok _ h, motionsOf_append, LineProgress.motionsOf_warnings]
    refine ⟨hm, ?_⟩
    cases motion with
    | none => exact fun r hr => absurd hr List.not_mem_nil
    | some r => exact List.forall_mem_singleton.mpr (hr r rfl)

/-- Steps that keep a property while they emit motions with another one make a run that does so. -/
theorem emitAll_motions {σ α : Type} {step : σ → α → σ × List Entry} (machine : σ → Machine) (s : σ)
    (items : List α)
    (hstep : ∀ s, ∀ x ∈ items, I (machine s) →
      I (machine (step s x).1) ∧ ∀ r ∈ motionsOf (step s x).2, P r) (hs : I (machine s)) :
    I (machine (emitAll step s items).1) ∧ ∀ r ∈ motionsOf (emitAll step s items).2.toList, P r := by
  refine emitAll_rel (R := fun s out t => I (machine s) → I (machine t) ∧ ∀ r ∈ motionsOf out, P r)
    ?_ ?_ s items hstep hs
  · exact fun s hs => ⟨hs, fun r hr => absurd hr List.not_mem_nil⟩
  · intro s xs t ys u hx hy hs
    obtain ⟨ht, hxs⟩ := hx hs
    obtain ⟨hu, hys⟩ := hy ht
    rw [motionsOf_append]
    exact ⟨hu, List.forall_mem_append.mpr ⟨hxs, hys⟩⟩

theorem Keeps.line (hk : Keeps setup I P) (p : Progress) (numbered : String × Nat) (hp : I p.machine) :
    I (p.line setup numbered).1.machine ∧ ∀ r ∈ motionsOf (p.line setup numbered).2, P r := by
  have hrange := Block.ofLine_inRange numbered.2 p.machine.motionMode numbered.1
  have hc : I (p.commands setup numbered).1.progress.machine ∧
      ∀ r ∈ motionsOf (p.commands setup numbered).2.toList, P r := by
    unfold Progress.commands
    exact emitAll_motions (fun s : LineProgress => s.progress.machine) _ _
      (fun s action ha hs => hk.command numbered.2 s (hrange action ha) hs) hp
  rw [Progress.line_fst, Progress.line_snd, motionsOf_append, motionsOf_noted, List.nil_append]
  exact hc

/-- **From commands to programs.** -/
theorem Timeline.ofLines_keeps (hk : Keeps setup I P) (hsetup : I (.ofSetup setup))
    (mint : Nat → MoveId) (lines : List String) :
    I (ofLines setup mint lines).final ∧ ∀ m ∈ (ofLines setup mint lines).moves, P m.motion := by
  have h := emitAll_motions (fun p : Progress => p.machine) { machine := .ofSetup setup }
    (lines.zipIdx 0) (fun p numbered _ hp => hk.line p numbered hp) hsetup
  refine ⟨h.1, fun m hm => h.2 m.motion ?_⟩
  have hmotion := List.mem_map_of_mem (f := Move.motion) hm
  simp only [ofLines, movesOf_motion] at hmotion
  exact hmotion

end Keeps

/-! ## Whole programs -/

/-- All machines and positions that a timeline holds are in their range. -/
structure Timeline.InRange (t : Timeline) : Prop where
  start : ∀ m ∈ t.moves, m.start.isFinite = true
  stop : ∀ m ∈ t.moves, m.stop.isFinite = true
  after : ∀ m ∈ t.moves, m.after.InRange
  final : t.final.InRange

theorem Machine.inRange_keeps (setup : Setup) : Keeps setup Machine.InRange Motion.InRange where
  apply hm ha h := hm.apply ha h
  withMode mode hm := hm.withMode mode

/-- **The range of a machine.** Whatever the setup and the program are. -/
theorem Timeline.run_inRange (setup : Setup) (mint : Nat → MoveId) (program : Program) :
    ∃ t, run setup mint (fun _ => false) program = .ok t ∧ t.InRange := by
  obtain ⟨hfinal, hmoves⟩ := ofLines_keeps (Machine.inRange_keeps setup)
    (Machine.inRange_ofSetup setup) mint program.lines
  refine ⟨_, run_unset setup mint program, ?_⟩
  exact
    { start := fun m hm => (hmoves m hm).start
      stop := fun m hm => (hmoves m hm).stop
      after := fun m hm => (hmoves m hm).after
      final := hfinal }

end Toolpath
