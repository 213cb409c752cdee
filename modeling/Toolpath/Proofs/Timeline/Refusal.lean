import Toolpath.Proofs.Block.Parts
import Toolpath.Proofs.Timeline.Chain

/-!
# Lines that come to nothing

A motion code takes effect before the motion of its group, and if that motion is refused the code is
taken back. So a line of which all motions are refused, and which commands nothing else that the
machine feels, leaves the machine as it was.

* `Machine.refuses_withMode`: whether a command is refused does not depend on the motion mode.
* `Draft.Futile`: the words of such a line.
* `Quiet`: commands that leave a machine as it was and make no motion. Idle commands and refused groups
  are quiet, and so is any sequence of quiet parts.
* `Progress.line_of_futile`: such a line changes nothing.
-/

namespace Toolpath

namespace Machine

/-- Whether a machine refuses a command. -/
def refuses (setup : Setup) (m : Machine) (action : Action) : Bool :=
  match m.apply setup action with
  | .ok _ => false
  | .error _ => true

theorem exists_of_refuses {setup : Setup} {m : Machine} {action : Action}
    (h : m.refuses setup action = true) : ∃ cause, m.apply setup action = .error cause := by
  unfold refuses at h
  split at h
  · cases h
  · exact ⟨_, ‹_›⟩

/-- Neither the end of a motion nor its arc depends on the motion mode. -/
theorem refuses_withMode (setup : Setup) (m : Machine) (kind : MotionKind) (action : Action) :
    ({ m with motionMode := kind } : Machine).refuses setup action = m.refuses setup action := by
  cases action with
  | linearMove rapid target =>
    have hd : ({ m with motionMode := kind } : Machine).destination setup target =
        m.destination setup target := rfl
    simp only [refuses, apply, hd]
    cases m.destination setup target <;> rfl
  | arcMove clockwise target center radius =>
    have hd : ({ m with motionMode := kind } : Machine).destination setup target =
        m.destination setup target := rfl
    simp only [refuses, apply, hd]
    cases m.destination setup target with
    | error cause => rfl
    | ok stop =>
      simp only [bind, Except.bind]
      cases Arc.resolve setup.arcTolerance m.plane m.position stop clockwise center radius <;> rfl
  | setAxisOffset words =>
    have ho : ({ m with motionMode := kind } : Machine).offsetFor setup words =
        m.offsetFor setup words := rfl
    simp only [refuses, apply, ho]
    cases m.offsetFor setup words <;> rfl
  | _ => rfl

end Machine

/-- Whether a group has words and commands a motion that a machine refuses. -/
def WordGroup.isRefused (setup : Setup) (m : Machine) (g : WordGroup) : Bool :=
  match g.kind with
  | .motion kind => (g.motion? kind).any (m.refuses setup)
  | .axisOffset => false

/-- Words of a line that come to nothing. Apart from the commands of its motion groups all of them are
idle, and each motion group that commands anything is refused. -/
structure Draft.Futile (setup : Setup) (m : Machine) (d : Draft) : Prop where
  idle : ∀ action ∈ d.actions, action.isIdle ∨ action.isMotionPart
  refused : ∀ g ∈ d.groups, g.motionActions ≠ [] → g.isRefused setup m

instance (setup : Setup) (m : Machine) (d : Draft) : Decidable (d.Futile setup m) :=
  decidable_of_iff
    ((∀ action ∈ d.actions, action.isIdle ∨ action.isMotionPart) ∧
      ∀ g ∈ d.groups, g.motionActions ≠ [] → g.isRefused setup m)
    ⟨fun h => ⟨h.1, h.2⟩, fun h => ⟨h.idle, h.refused⟩⟩

/-! ## Quiet commands -/

/-- A line has come to the end of a group of words, and the machine is `m`. -/
structure LineProgress.Rests (m : Machine) (s : LineProgress) : Prop where
  machine : s.progress.machine = m
  modeBefore : s.modeBefore = none

/-- A refused motion is noted, and a motion code in front of it is taken back. -/
theorem LineProgress.command_of_refused {setup : Setup} (line : Nat) {s : LineProgress} {action : Action}
    (hm : action.isMotion = true) (h : s.progress.machine.refuses setup action = true) :
    (s.command setup line action).1.Rests (s.afterRefusal action) ∧
      motionsOf (s.command setup line action).2 = [] := by
  obtain ⟨cause, hc⟩ := Machine.exists_of_refuses h
  rw [command_of_error line hc, hm]
  refine ⟨⟨rfl, rfl⟩, ?_⟩
  rw [motionsOf_append, motionsOf_warnings]
  rfl

/-- Commands that leave a machine as it was and make no motion. -/
def Quiet (setup : Setup) (line : Nat) (m : Machine) (actions : List Action) : Prop :=
  ∀ s : LineProgress, s.Rests m →
    (emitAll (LineProgress.command setup line) s actions).1.Rests m ∧
      motionsOf (emitAll (LineProgress.command setup line) s actions).2.toList = []

namespace Quiet

variable {setup : Setup} {line : Nat} {m : Machine} {action : Action} {xs ys : List Action}

theorem nil : Quiet setup line m [] := fun _ hs => ⟨hs, rfl⟩

theorem append (hx : Quiet setup line m xs) (hy : Quiet setup line m ys) :
    Quiet setup line m (xs ++ ys) := by
  intro s hs
  obtain ⟨hr, hxs⟩ := hx s hs
  obtain ⟨ht, hys⟩ := hy _ hr
  rw [emitAll_append]
  refine ⟨ht, ?_⟩
  rw [Array.toList_append, motionsOf_append, hxs, hys, List.append_nil]

theorem flatMap {α : Type} {f : α → List Action} {items : List α}
    (h : ∀ x ∈ items, Quiet setup line m (f x)) : Quiet setup line m (items.flatMap f) := by
  induction items with
  | nil => exact nil
  | cons x items ih =>
    rw [List.flatMap_cons]
    exact (h x List.mem_cons_self).append (ih fun y hy => h y (List.mem_cons_of_mem x hy))

theorem of_isIdle (h : action.isIdle = true) : Quiet setup line m [action] := by
  intro s hs
  have happly : s.progress.machine.apply setup action = .ok (s.progress.machine, none) := by
    unfold Action.isIdle at h
    split at h <;> first | rfl | cases h
  have hmotion : action.isMotion = false := by
    cases action <;> first | rfl | cases h
  have hfallback : s.fallback action = s.modeBefore := by
    cases action <;> first | rfl | cases h
  rw [emitAll_cons, LineProgress.command_of_ok line happly]
  refine ⟨⟨hs.machine, ?_⟩, ?_⟩
  · simp only [emitAll_nil, hmotion, hfallback]
    exact hs.modeBefore
  · simp [LineProgress.motionsOf_warnings]

theorem of_forall_isIdle (h : ∀ action ∈ xs, action.isIdle = true) : Quiet setup line m xs := by
  have hx : xs = xs.flatMap fun action => [action] := by simp
  rw [hx]
  exact flatMap fun action ha => of_isIdle (h action ha)

/-- A refused motion under the mode in force. -/
theorem of_refused (hm : action.isMotion = true) (h : m.refuses setup action = true) :
    Quiet setup line m [action] := by
  intro s hs
  have hrefused : s.progress.machine.refuses setup action = true := by rw [hs.machine, h]
  obtain ⟨hr, hmotions⟩ := LineProgress.command_of_refused line hm hrefused
  have hback : s.afterRefusal action = m := by
    rw [LineProgress.afterRefusal, hm, hs.modeBefore]
    exact hs.machine
  rw [emitAll_cons]
  refine ⟨hback ▸ hr, ?_⟩
  simpa using hmotions

/-- A refused motion with its motion code. -/
theorem of_refused_code (kind : MotionKind) (hm : action.isMotion = true)
    (h : m.refuses setup action = true) : Quiet setup line m [.setMotionMode kind, action] := by
  intro s hs
  -- the code takes effect, and the mode before it is kept
  let s' : LineProgress := (s.command setup line (.setMotionMode kind)).1
  have hmachine : s'.progress.machine = { m with motionMode := kind } := by
    rw [← hs.machine]
    rfl
  have hmode : s'.modeBefore = some m.motionMode := by
    rw [← hs.machine]
    rfl
  have hrefused : s'.progress.machine.refuses setup action = true := by
    rw [hmachine, Machine.refuses_withMode, h]
  obtain ⟨hr, hmotions⟩ := LineProgress.command_of_refused line hm hrefused
  have hback : s'.afterRefusal action = m := by
    rw [LineProgress.afterRefusal, hm, hmode, hmachine]
  have hsilent : (s.command setup line (.setMotionMode kind)).2 = [] := rfl
  rw [emitAll_cons, hsilent, emitAll_cons]
  refine ⟨hback ▸ hr, ?_⟩
  simpa using hmotions

/-- The commands of a refused group. -/
theorem of_isRefused {g : WordGroup} (h : g.isRefused setup m = true) :
    Quiet setup line m g.motionActions := by
  unfold WordGroup.isRefused at h
  split at h
  · rename_i kind hk
    obtain ⟨action, ha, hr⟩ := (Option.any_eq_true _ _).mp h
    have hm : action.isMotion = true := by
      unfold WordGroup.motion? at ha
      split at ha
      · cases ha
        cases kind <;> rfl
      · cases ha
    have hg : g.motionActions = (if g.implicit then [] else [.setMotionMode kind]) ++ [action] := by
      simp only [WordGroup.motionActions, hk, ha, Option.toList_some]
    rw [hg]
    split
    · exact of_refused hm hr
    · exact of_refused_code kind hm hr
  · cases h

end Quiet

/-! ## Futile lines -/

theorem Draft.Futile.quiet {setup : Setup} {m : Machine} {d : Draft} (h : d.Futile setup m) (line : Nat) :
    Quiet setup line m d.actions := by
  -- outside of the motion groups nothing but idle commands is left
  have hidle : ∀ action ∈ d.actions, action.isMotionPart = false → action.isIdle = true := by
    intro action ha hp
    rcases h.idle action ha with hi | hm
    · exact hi
    · rw [hp] at hm
      cases hm
  have hmem : ∀ action, action ∈ d.settings ∨ action ∈ d.groups.flatMap WordGroup.offsetActions ∨
      action ∈ d.programFlow.map Action.auxiliary → action ∈ d.actions := by
    intro action ha
    rw [d.actions_eq]
    rcases ha with ha | ha | ha <;> simp [ha]
  have hset : Quiet setup line m d.settings := by
    refine .of_forall_isIdle fun action ha => ?_
    exact hidle action (hmem action (.inl ha)) (d.settings_plain action ha).2
  have hoff : Quiet setup line m (d.groups.flatMap WordGroup.offsetActions) := by
    refine .of_forall_isIdle fun action ha => hidle action (hmem action (.inr (.inl ha))) ?_
    obtain ⟨g, -, ha⟩ := List.mem_flatMap.mp ha
    exact Action.isMotionPart_of_isOffset (g.offsetActions_isOffset action ha)
  have hmot : Quiet setup line m (d.groups.flatMap WordGroup.motionActions) := by
    refine .flatMap fun g hg => ?_
    by_cases hn : g.motionActions = []
    · rw [hn]
      exact .nil
    · exact .of_isRefused (h.refused g hg hn)
  have hflow : Quiet setup line m (d.programFlow.map Action.auxiliary) := by
    refine .of_forall_isIdle fun action ha => hidle action (hmem action (.inr (.inr ha))) ?_
    obtain ⟨auxiliary, -, rfl⟩ := List.mem_map.mp ha
    rfl
  rw [d.actions_eq]
  exact ((hset.append hoff).append hmot).append hflow

/-- **A line that comes to nothing** leaves the machine as it was and makes no motion. -/
theorem Progress.line_of_futile {setup : Setup} {p : Progress} {text : String}
    (h : (Draft.ofLine p.machine.motionMode text).Futile setup p.machine) (line : Nat) :
    (p.line setup (text, line)).1.machine = p.machine ∧
      motionsOf (p.line setup (text, line)).2 = [] := by
  obtain ⟨hr, hm⟩ := h.quiet line { progress := p } ⟨rfl, rfl⟩
  rw [← Block.actions_eq line] at hr hm
  rw [line_fst, line_snd, motionsOf_append, motionsOf_noted, List.nil_append, commands]
  dsimp only
  exact ⟨hr.machine, hm⟩

end Toolpath
