import Toolpath.Proofs.Machine.Range

/-!
# The end point of a motion

`Simulator.destination`. A motion programs some of the axes. Each of these gets the value that its
number stands for, and all others keep theirs to the bit. The values are tried in the order of the axes,
and the first that is not finite refuses the motion, whatever else it asks for.

* `AxisWords.find?_toPairs`: the first programmed axis with some property.
* `Machine.OutOfReach`, `Machine.EndPoint`: the rule for one axis and for the whole point, in both distance
  modes.
* `Machine.EndsAt`, `Machine.destination_endsAt`: what the words of a motion come to.
* `Machine.apply_merges`: straight motions and arcs follow the rule.
-/

namespace Toolpath

/-! ## Programmed axes in their order -/

namespace AxisWords

variable {words : AxisWords} {axis : Axis} {v : Float}

theorem get_of_mem_toPairs (h : (axis, v) ∈ words.toPairs) : words.get axis = some v := by
  obtain ⟨other, -, hv⟩ := List.mem_filterMap.mp h
  obtain ⟨w, hw, heq⟩ := Option.map_eq_some_iff.mp hv
  cases heq
  exact hw

theorem toPairs_pairwise (words : AxisWords) :
    words.toPairs.Pairwise fun p q => p.1.index < q.1.index := by
  have hall : Axis.all.Pairwise fun axis other => axis.index < other.index := by decide
  refine hall.filterMap _ fun axis other hlt p hp q hq => ?_
  obtain ⟨v, -, rfl⟩ := Option.map_eq_some_iff.mp hp
  obtain ⟨w, -, rfl⟩ := Option.map_eq_some_iff.mp hq
  exact hlt

/-- The first programmed axis with a property: those before it do not have it. -/
theorem find?_toPairs {p : Axis × Float → Bool} (h : words.toPairs.find? p = some (axis, v)) :
    words.get axis = some v ∧ p (axis, v) = true ∧
      ∀ other w, other.index < axis.index → words.get other = some w → p (other, w) = false := by
  obtain ⟨hp, before, after, hsplit, hbefore⟩ := List.find?_eq_some_iff_append.mp h
  refine ⟨get_of_mem_toPairs (List.mem_of_find?_eq_some h), hp, fun other w hlt hw => ?_⟩
  have hmem : (other, w) ∈ before ++ (axis, v) :: after := hsplit ▸ mem_toPairs hw
  have hsorted := hsplit ▸ words.toPairs_pairwise
  obtain ⟨-, hafter, -⟩ := List.pairwise_append.mp hsorted
  rcases List.mem_append.mp hmem with hmem | hmem
  · simpa using hbefore _ hmem
  · rcases List.mem_cons.mp hmem with heq | hmem
    · cases heq
      omega
    · have hgt : axis.index < other.index := List.rel_of_pairwise_cons hafter hmem
      omega

end AxisWords

/-! ## The rule -/

namespace Machine

variable (setup : Setup) (m : Machine) (target : AxisWords)

/-- An axis is programmed to a value that is not finite. -/
def OutOfReach (axis : Axis) : Prop :=
  ∃ v, target.get axis = some v ∧
    match m.distanceMode with
    | .absolute =>
      (v + (setup.workOffsets.get m.workOffset).get axis + m.axisOffset.get axis).isFinite = false
    | .incremental => (m.position.get axis + v).isFinite = false

/-- The point that a motion asks for. Axes that are not programmed keep their value; a number is a place in
the work coordinates or a step, as the distance mode says. -/
structure EndPoint (stop : Position) : Prop where
  kept : ∀ axis, target.get axis = none → stop.get axis = m.position.get axis
  absolute : m.distanceMode = .absolute → ∀ axis v, target.get axis = some v →
    stop.get axis = v + (setup.workOffsets.get m.workOffset).get axis + m.axisOffset.get axis
  incremental : m.distanceMode = .incremental → ∀ axis v, target.get axis = some v →
    stop.get axis = m.position.get axis + v

/-- What the words of a motion come to: the point that they ask for, or the first axis that is out of
reach. -/
inductive EndsAt : Except MotionError Position → Prop where
  | reached {stop : Position} (hreach : ∀ axis, ¬ m.OutOfReach setup target axis)
    (hstop : m.EndPoint setup target stop) : EndsAt (.ok stop)
  | outOfReach {axis : Axis} (haxis : m.OutOfReach setup target axis)
    (hfirst : ∀ other, other.index < axis.index → ¬ m.OutOfReach setup target other) :
    EndsAt (.error (.nonFinitePosition axis))

variable {setup m target}

theorem outOfReach_iff {axis : Axis} :
    m.OutOfReach setup target axis ↔
      ∃ v, target.get axis = some v ∧ (m.resolved setup axis v).isFinite = false := by
  unfold OutOfReach resolved
  cases m.distanceMode <;> rfl

theorem endPoint_of_resolved {stop : Position}
    (h : ∀ axis, stop.get axis = ((target.get axis).map (m.resolved setup axis)).getD (m.position.get axis)) :
    m.EndPoint setup target stop where
  kept axis hn := by rw [h, hn, Option.map_none, Option.getD_none]
  absolute hmode axis v hv := by
    rw [h, hv, Option.map_some, Option.getD_some, resolved, hmode]
  incremental hmode axis v hv := by
    rw [h, hv, Option.map_some, Option.getD_some, resolved, hmode]

theorem EndsAt.isOk_iff {outcome : Except MotionError Position} (h : m.EndsAt setup target outcome) :
    outcome.isOk = true ↔ ∀ axis, ¬ m.OutOfReach setup target axis := by
  cases h with
  | reached hreach => exact iff_of_true rfl hreach
  | outOfReach haxis => exact iff_of_false Bool.false_ne_true fun hreach => hreach _ haxis

/-- The destination follows the rule. -/
theorem destination_endsAt (setup : Setup) (m : Machine) (target : AxisWords) :
    m.EndsAt setup target (m.destination setup target) := by
  unfold destination AxisWords.resolveOver
  split
  · rename_i axis v hfind
    obtain ⟨hv, hp, hfirst⟩ := AxisWords.find?_toPairs hfind
    refine .outOfReach (outOfReach_iff.mpr ⟨v, hv, by simpa using hp⟩) fun other hlt hother => ?_
    obtain ⟨w, hw, hinf⟩ := outOfReach_iff.mp hother
    have hfin := hfirst other w hlt hw
    simp [hinf] at hfin
  · rename_i hnone
    refine .reached (fun axis haxis => ?_) (endPoint_of_resolved fun axis => PerAxis.get_ofFn _ axis)
    obtain ⟨v, hv, hinf⟩ := outOfReach_iff.mp haxis
    have hfin := List.find?_eq_none.mp hnone _ (AxisWords.mem_toPairs hv)
    simp [hinf] at hfin

/-! ## Motions -/

theorem apply_linearMove (setup : Setup) (m : Machine) (rapid : Bool) (target : AxisWords) :
    m.apply setup (.linearMove rapid target) =
      (m.destination setup target).map fun stop =>
        m.moveTo (if rapid then .rapid else .linear) stop none := by
  rw [apply]
  cases m.destination setup target <;> rfl

theorem apply_arcMove (setup : Setup) (m : Machine) (clockwise : Bool) (target : AxisWords)
    (center : CenterOffsets) (radius : Option Float) :
    m.apply setup (.arcMove clockwise target center radius) =
      (m.destination setup target).bind fun stop =>
        (Arc.resolve setup.arcTolerance m.plane m.position stop clockwise center radius).map fun arc =>
          m.moveTo (arcKind clockwise) stop (some arc) := by
  rw [apply]
  cases m.destination setup target with
  | error cause => rfl
  | ok stop =>
    simp only [bind, Except.bind]
    cases Arc.resolve setup.arcTolerance m.plane m.position stop clockwise center radius <;> rfl

/-- **The axis-merge rule.** A straight motion succeeds exactly if no programmed axis is out of reach. It
leads from the present place to the point that its words ask for and changes nothing but place and motion
mode; otherwise the first axis out of reach is the reason. An arc ends by the same rule, before anything else
of it is looked at. -/
theorem apply_merges (setup : Setup) (m : Machine) (target : AxisWords) :
    ∃ outcome : Except MotionError Position, m.EndsAt setup target outcome ∧
      (∀ rapid, (m.apply setup (.linearMove rapid target)).isOk = true ↔
        ∀ axis, ¬ m.OutOfReach setup target axis) ∧
      (∀ rapid, m.apply setup (.linearMove rapid target) =
        outcome.map fun stop =>
          let kind := if rapid then .rapid else .linear
          let after := { m with position := stop, motionMode := kind }
          (after, some { kind, start := m.position, stop, arc := none, after })) ∧
      ∀ clockwise center radius, m.apply setup (.arcMove clockwise target center radius) =
        outcome.bind fun stop =>
          (Arc.resolve setup.arcTolerance m.plane m.position stop clockwise center radius).map fun arc =>
            let kind := if clockwise then .arcClockwise else .arcCounterClockwise
            let after := { m with position := stop, motionMode := kind }
            (after, some { kind, start := m.position, stop, arc := some arc, after }) := by
  have hend := destination_endsAt setup m target
  refine ⟨_, hend, fun rapid => ?_, fun rapid => m.apply_linearMove setup rapid target,
    fun clockwise center radius => m.apply_arcMove setup clockwise target center radius⟩
  rw [← hend.isOk_iff, apply_linearMove]
  cases m.destination setup target <;> rfl

end Machine

end Toolpath
