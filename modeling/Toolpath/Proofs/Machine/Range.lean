import Toolpath.Proofs.Block.Range
import Toolpath.Proofs.Machine.ArcRange

/-!
# The range of a machine

Positions and axis offsets are finite because no other value is let in, whatever the setup says; rates
are because no line commands another one.

* `AxisWords.resolveOver_isFinite`: the only way to new positions and offsets.
* `Machine.InRange`: the numbers of a machine are in their range.
* `Machine.InRange.apply`: every command keeps them there.
-/

namespace Toolpath

/-! ## Positions -/

theorem AxisWords.mem_toPairs {words : AxisWords} {axis : Axis} {v : Float}
    (h : words.get axis = some v) : (axis, v) ∈ words.toPairs := by
  refine List.mem_filterMap.mpr ⟨axis, by cases axis <;> decide, ?_⟩
  rw [h]
  rfl

/-- Whatever is resolved over a finite position is finite. -/
theorem AxisWords.resolveOver_isFinite {words : AxisWords} {base p : Position}
    {f : Axis → Float → Float} (hbase : base.isFinite = true) (h : words.resolveOver base f = .ok p) :
    p.isFinite = true := by
  unfold resolveOver at h
  split at h
  · cases h
  · rename_i hnone
    cases h
    rw [Position.isFinite_iff] at hbase ⊢
    intro axis
    rw [PerAxis.get_ofFn]
    cases hv : words.get axis with
    | none => exact hbase axis
    | some v =>
      have hf := List.find?_eq_none.mp hnone _ (mem_toPairs hv)
      simpa using hf

/-! ## Machines -/

/-- The numbers of a machine are in their range. -/
structure Machine.InRange (m : Machine) : Prop where
  position : m.position.isFinite = true
  axisOffset : m.axisOffset.isFinite = true
  feedRate : Number.IsRate m.feedRate
  spindleSpeed : Number.IsRate m.spindleSpeed
  tool : m.tool < Number.twoTo 32

/-- A motion between finite positions, with the machine after it in its range. The radius of its arc
tells whether all of the arc is finite. -/
structure Motion.InRange (r : Motion) : Prop where
  start : r.start.isFinite = true
  stop : r.stop.isFinite = true
  arc : ∀ a, r.arc = some a → (a.Usable ↔ a.radius.isFinite = true)
  after : r.after.InRange

namespace Machine

variable {setup : Setup} {m m' : Machine} {action : Action} {motion : Option Motion}

theorem inRange_ofSetup (setup : Setup) : (ofSetup setup).InRange where
  position := Position.isFinite_origin
  axisOffset := Position.isFinite_origin
  feedRate := Number.isRate_zero
  spindleSpeed := Number.isRate_zero
  tool := Nat.two_pow_pos 32

theorem InRange.withMode (hm : m.InRange) (mode : MotionKind) : InRange { m with motionMode := mode } :=
  { hm with }

theorem InRange.moveTo (hm : m.InRange) {stop : Position} (hs : stop.isFinite = true)
    (kind : MotionKind) {arc : Option Arc}
    (ha : ∀ a, arc = some a → (a.Usable ↔ a.radius.isFinite = true)) :
    (m.moveTo kind stop arc).1.InRange ∧ ∀ r ∈ (m.moveTo kind stop arc).2, r.InRange := by
  have hafter : (m.moveTo kind stop arc).1.InRange := { hm with position := hs }
  refine ⟨hafter, fun r hr => ?_⟩
  cases hr
  exact ⟨hm.position, hs, ha, hafter⟩

theorem InRange.applyAuxiliary (hm : m.InRange) {action : Auxiliary} (ha : action.InRange) :
    (m.applyAuxiliary action).InRange := by
  cases action with
  | spindleSpeed rpm => exact { hm with spindleSpeed := ha }
  | selectTool tool => exact { hm with tool := ha }
  | dwell | toolChange | pause => exact hm
  | spindle | coolant | programEnd => exact { hm with }

/-- **One command.** -/
theorem InRange.apply (hm : m.InRange) (ha : action.InRange)
    (h : m.apply setup action = .ok (m', motion)) : m'.InRange ∧ ∀ r ∈ motion, r.InRange := by
  have hstay : ∀ {m' : Machine}, m'.InRange → m'.InRange ∧ ∀ r ∈ none, Motion.InRange r :=
    fun h => ⟨h, fun r hr => by cases hr⟩
  cases action with
  | linearMove rapid target =>
    obtain ⟨stop, hstop, h⟩ := exists_of_bind_ok h
    cases h
    exact hm.moveTo (AxisWords.resolveOver_isFinite hm.position hstop) _ fun a ha => by cases ha
  | arcMove clockwise target center radius =>
    obtain ⟨stop, hstop, h⟩ := exists_of_bind_ok h
    obtain ⟨arc, harc, h⟩ := exists_of_bind_ok h
    cases h
    have hs := AxisWords.resolveOver_isFinite hm.position hstop
    refine hm.moveTo hs _ fun a ha => ?_
    cases ha
    exact Arc.resolve_usable_iff hm.position hs harc
  | setAxisOffset words =>
    obtain ⟨offset, hoffset, h⟩ := exists_of_bind_ok h
    cases h
    exact hstay { hm with axisOffset := AxisWords.resolveOver_isFinite hm.axisOffset hoffset }
  | setFeedRate rate =>
    cases h
    exact hstay { hm with feedRate := ha }
  | clearAxisOffset =>
    cases h
    exact hstay { hm with axisOffset := Position.isFinite_origin }
  | auxiliary action =>
    cases h
    exact hstay (hm.applyAuxiliary ha)
  | setMotionMode | setUnits | selectPlane | setDistanceMode | selectWorkOffset | comment | noOp =>
    cases h
    exact hstay { hm with }

end Machine

end Toolpath
