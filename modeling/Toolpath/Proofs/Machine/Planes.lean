import Mathlib.Logic.Equiv.Defs
import Toolpath.Proofs.Block.Grouping
import Toolpath.Proofs.Machine.Merge

/-!
# Arcs in all planes

The three planes differ in the names of their axes only. Renaming the axes of the `XY` plane and its
normal to those of another plane, everywhere in setup, machine and command, renames what an arc command
does. The one thing that names cannot carry over is which of several axes out of reach is reported,
since the axes keep their order.

* `Plane.renaming`: first axis to first axis, second to second, normal to normal.
* `Setup.inPlane`, `Machine.inPlane`, `Motion.inPlane` and others: renamed data.
* `Machine.destination_inPlane`: the end of a motion.
* `Arc.resolve_inPlane`: the arc, or why there is none.
* `Plane.Matches`, `Machine.apply_matches`: a whole arc command.
-/

namespace Toolpath

/-! ## Renamed axes -/

/-- The axes of the `XY` plane and its normal, renamed to those of a plane. Rotary axes keep their names. -/
def Plane.renaming (plane : Plane) : Equiv.Perm Axis where
  toFun axis :=
    match plane, axis with
    | .xz, .y => .z
    | .xz, .z => .y
    | .yz, .x => .y
    | .yz, .y => .z
    | .yz, .z => .x
    | _, axis => axis
  invFun axis :=
    match plane, axis with
    | .xz, .y => .z
    | .xz, .z => .y
    | .yz, .x => .z
    | .yz, .y => .x
    | .yz, .z => .y
    | _, axis => axis
  left_inv axis := by cases plane <;> cases axis <;> rfl
  right_inv axis := by cases plane <;> cases axis <;> rfl

/-- The letter of a center offset, renamed with its axis. -/
def Plane.renamedWord (plane : Plane) : Char → Char
  | 'I' => Arc.offsetLetter (plane.renaming .x)
  | 'J' => Arc.offsetLetter (plane.renaming .y)
  | 'K' => Arc.offsetLetter (plane.renaming .z)
  | word => word

/-- Values that follow their axes into a plane. -/
def PerAxis.inPlane {α : Type} (plane : Plane) (p : PerAxis α) : PerAxis α :=
  .ofFn fun axis => p.get (plane.renaming.symm axis)

def CenterOffsets.inPlane (plane : Plane) (o : CenterOffsets) : CenterOffsets where
  i := o.along (plane.renaming.symm .x)
  j := o.along (plane.renaming.symm .y)
  k := o.along (plane.renaming.symm .z)

def OffsetTable.inPlane (plane : Plane) (t : OffsetTable) : OffsetTable where
  g54 := t.g54.inPlane plane
  g55 := t.g55.inPlane plane
  g56 := t.g56.inPlane plane
  g57 := t.g57.inPlane plane
  g58 := t.g58.inPlane plane
  g59 := t.g59.inPlane plane

def Setup.inPlane (plane : Plane) (setup : Setup) : Setup :=
  { setup with workOffsets := setup.workOffsets.inPlane plane }

/-- A machine in another plane, with its position and axis offset. -/
def Machine.inPlane (plane : Plane) (m : Machine) : Machine :=
  { m with
    plane
    position := m.position.inPlane plane
    axisOffset := m.axisOffset.inPlane plane }

/-- An arc in another plane: radius, start angle and sweep stay. -/
def Arc.inPlane (plane : Plane) (a : Arc) : Arc := { a with plane, center := a.center.inPlane plane }

def Motion.inPlane (plane : Plane) (r : Motion) : Motion :=
  { r with
    start := r.start.inPlane plane
    stop := r.stop.inPlane plane
    arc := r.arc.map (Arc.inPlane plane)
    after := r.after.inPlane plane }

/-- A refusal with renamed words and axes. -/
def MotionError.inPlane (plane : Plane) : MotionError → MotionError
  | .invalidArcWord word _ => .invalidArcWord (plane.renamedWord word) plane
  | .nonFinitePosition axis => .nonFinitePosition (plane.renaming axis)
  | cause => cause

section Renamed

variable {α : Type} (plane : Plane)

@[simp] theorem PerAxis.get_inPlane (p : PerAxis α) (axis : Axis) :
    (p.inPlane plane).get (plane.renaming axis) = p.get axis := by
  rw [inPlane, get_ofFn, Equiv.symm_apply_apply]

@[simp] theorem OffsetTable.get_inPlane (t : OffsetTable) (slot : WorkOffset) :
    (t.inPlane plane).get slot = (t.get slot).inPlane plane := by
  cases slot <;> rfl

theorem CenterOffsets.isEmpty_inPlane (o : CenterOffsets) : (o.inPlane plane).isEmpty = o.isEmpty := by
  obtain ⟨i, j, k⟩ := o
  cases plane <;> cases i <;> cases j <;> cases k <;> rfl

end Renamed

/-! ## The end of a motion -/

namespace Machine

variable {setup : Setup} {m : Machine} {target : AxisWords} {stop : Position} (plane : Plane)

theorem outOfReach_inPlane {axis : Axis} :
    (m.inPlane plane).OutOfReach (setup.inPlane plane) (target.inPlane plane) (plane.renaming axis) ↔
      m.OutOfReach setup target axis := by
  simp only [OutOfReach, inPlane, Setup.inPlane, PerAxis.get_inPlane, OffsetTable.get_inPlane]

theorem EndPoint.unique {other : Position} (h : m.EndPoint setup target stop)
    (h' : m.EndPoint setup target other) : stop = other := by
  refine PerAxis.ext_get fun axis => ?_
  cases hv : target.get axis with
  | none => rw [h.kept axis hv, h'.kept axis hv]
  | some v =>
    cases hmode : m.distanceMode with
    | absolute => rw [h.absolute hmode axis v hv, h'.absolute hmode axis v hv]
    | incremental => rw [h.incremental hmode axis v hv, h'.incremental hmode axis v hv]

theorem EndPoint.inPlane (h : m.EndPoint setup target stop) :
    (m.inPlane plane).EndPoint (setup.inPlane plane) (target.inPlane plane) (stop.inPlane plane) where
  kept := by
    rw [plane.renaming.surjective.forall]
    simpa only [Machine.inPlane, PerAxis.get_inPlane] using h.kept
  absolute hmode := by
    rw [plane.renaming.surjective.forall]
    simpa only [Machine.inPlane, Setup.inPlane, PerAxis.get_inPlane, OffsetTable.get_inPlane] using
      h.absolute hmode
  incremental hmode := by
    rw [plane.renaming.surjective.forall]
    simpa only [Machine.inPlane, PerAxis.get_inPlane] using h.incremental hmode

/-- The end of a renamed motion: the renamed point, or some axis out of reach. -/
theorem destination_inPlane (setup : Setup) (m : Machine) (target : AxisWords) :
    (∃ stop, m.destination setup target = .ok stop ∧
      (m.inPlane plane).destination (setup.inPlane plane) (target.inPlane plane) =
        .ok (stop.inPlane plane)) ∨
    ∃ axis other, m.destination setup target = .error (.nonFinitePosition axis) ∧
      (m.inPlane plane).destination (setup.inPlane plane) (target.inPlane plane) =
        .error (.nonFinitePosition other) := by
  have hreach : (∀ axis, ¬ (m.inPlane plane).OutOfReach (setup.inPlane plane) (target.inPlane plane) axis) ↔
      ∀ axis, ¬ m.OutOfReach setup target axis := by
    rw [plane.renaming.surjective.forall]
    simp only [outOfReach_inPlane]
  have h := destination_endsAt setup m target
  have h' := destination_endsAt (setup.inPlane plane) (m.inPlane plane) (target.inPlane plane)
  generalize m.destination setup target = outcome at h ⊢
  generalize (m.inPlane plane).destination (setup.inPlane plane) (target.inPlane plane) = outcome' at h' ⊢
  cases h with
  | @reached stop hr hstop =>
    cases h' with
    | reached _ hstop' => exact .inl ⟨stop, rfl, by rw [hstop'.unique (hstop.inPlane plane)]⟩
    | outOfReach haxis => exact absurd haxis (hreach.mpr hr _)
  | outOfReach haxis =>
    cases h' with
    | reached hr _ => exact absurd haxis (hreach.mp hr _)
    | outOfReach _ => exact .inr ⟨_, _, rfl, rfl⟩

end Machine

/-! ## The arc -/

namespace Arc

variable (plane : Plane)

theorem project_inPlane (p : Position) : plane.project (p.inPlane plane) = Plane.xy.project p := by
  cases plane <;> rfl

theorem place_inPlane (p : Position) (at_ : PlanarPoint) :
    plane.place (p.inPlane plane) at_ = (Plane.xy.place p at_).inPlane plane := by
  cases plane <;> rfl

/-- The circle is found in the plane, where the axes have no names. -/
theorem circle_inPlane (tolerance : Float) (start stop : PlanarPoint) (clockwise : Bool)
    (offsets : CenterOffsets) (radius : Option Float) :
    circle tolerance plane start stop clockwise (offsets.inPlane plane) radius =
      circle tolerance .xy start stop clockwise offsets radius := by
  have hfirst : (offsets.inPlane plane).along plane.first = offsets.along Plane.xy.first := by
    cases plane <;> rfl
  have hsecond : (offsets.inPlane plane).along plane.second = offsets.along Plane.xy.second := by
    cases plane <;> rfl
  unfold circle
  rw [CenterOffsets.isEmpty_inPlane, hfirst, hsecond]

/-- The reasons why there is no circle name neither words nor axes. -/
theorem circle_error {tolerance : Float} {start stop : PlanarPoint} {clockwise : Bool}
    {offsets : CenterOffsets} {radius : Option Float} {cause : MotionError}
    (h : circle tolerance plane start stop clockwise offsets radius = .error cause) :
    (∀ other, cause.inPlane other = cause) ∧ ∀ axis, cause ≠ .nonFinitePosition axis := by
  unfold circle at h
  split at h
  · unfold Circle.ofOffsets at h
    dsimp only at h
    split at h
    · cases h
      exact ⟨fun _ => rfl, by simp⟩
    · split at h
      · cases h
        exact ⟨fun _ => rfl, by simp⟩
      · cases h
  · split at h
    · unfold Circle.ofRadius at h
      dsimp only at h
      split at h
      · cases h
        exact ⟨fun _ => rfl, by simp⟩
      · split at h
        · cases h
          exact ⟨fun _ => rfl, by simp⟩
        · split at h
          · cases h
            exact ⟨fun _ => rfl, by simp⟩
          · cases h
    · cases h
      exact ⟨fun _ => rfl, by simp⟩

theorem onCircle_inPlane (start stop : Position) (clockwise : Bool) (c : Circle) :
    onCircle plane (start.inPlane plane) (stop.inPlane plane) clockwise c =
      (onCircle .xy start stop clockwise c).inPlane plane := by
  simp only [onCircle, project_inPlane, place_inPlane]
  rfl

/-- The arc of renamed words. -/
theorem resolve_inPlane (tolerance : Float) (start stop : Position) (clockwise : Bool)
    (offsets : CenterOffsets) (radius : Option Float) :
    resolve tolerance plane (start.inPlane plane) (stop.inPlane plane) clockwise (offsets.inPlane plane)
        radius =
      ((resolve tolerance .xy start stop clockwise offsets radius).map (Arc.inPlane plane)).mapError
        (MotionError.inPlane plane) := by
  have hnormal : (offsets.inPlane plane).along plane.normal = offsets.along Plane.xy.normal := by
    cases plane <;> rfl
  rw [resolve_eq, resolve_eq, hnormal]
  split
  · cases plane <;> rfl
  · rw [project_inPlane, project_inPlane, circle_inPlane]
    cases hc : circle tolerance .xy (Plane.xy.project start) (Plane.xy.project stop) clockwise offsets
      radius with
    | error cause => exact congrArg Except.error ((circle_error .xy hc).1 plane).symm
    | ok c => exact congrArg Except.ok (onCircle_inPlane plane start stop clockwise c)

/-- An arc is never refused for an axis out of reach. -/
theorem resolve_error {tolerance : Float} {start stop : Position} {clockwise : Bool}
    {offsets : CenterOffsets} {radius : Option Float} {cause : MotionError}
    (h : resolve tolerance plane start stop clockwise offsets radius = .error cause) (axis : Axis) :
    cause ≠ .nonFinitePosition axis := by
  rw [resolve_eq] at h
  split at h
  · cases h
    simp
  · cases hc : circle tolerance plane (plane.project start) (plane.project stop) clockwise offsets
      radius with
    | error cause' =>
      rw [hc] at h
      cases h
      exact (circle_error plane hc).2 axis
    | ok c =>
      rw [hc] at h
      cases h

end Arc

/-! ## Whole commands -/

/-- What a command does in the `XY` plane, and what a renamed one does in a plane. -/
inductive Plane.Matches (plane : Plane) :
    Except MotionError (Machine × Option Motion) → Except MotionError (Machine × Option Motion) → Prop where
  | done {m : Machine} {motion : Option Motion} :
    Matches plane (.ok (m, motion)) (.ok (m.inPlane plane, motion.map (Motion.inPlane plane)))
  | refused {cause : MotionError} (h : ∀ axis, cause ≠ .nonFinitePosition axis) :
    Matches plane (.error cause) (.error (cause.inPlane plane))
  | outOfReach {axis other : Axis} :
    Matches plane (.error (.nonFinitePosition axis)) (.error (.nonFinitePosition other))

/-- **All planes are alike.** An arc command that is renamed into a plane is carried out there exactly if it
is in the `XY` plane. Positions, the motion and the center of its arc are renamed; kind, radius, start angle
and sweep stay; and a refusal that is not for an axis out of reach is the renamed one. -/
theorem Machine.apply_matches (plane : Plane) (setup : Setup) (m : Machine) (hm : m.plane = .xy)
    (clockwise : Bool) (target : AxisWords) (center : CenterOffsets) (radius : Option Float) :
    plane.Matches (m.apply setup (.arcMove clockwise target center radius))
      ((m.inPlane plane).apply (setup.inPlane plane)
        (.arcMove clockwise (target.inPlane plane) (center.inPlane plane) radius)) := by
  rw [apply_arcMove, apply_arcMove, hm]
  obtain ⟨stop, hstop, hstop'⟩ | ⟨axis, other, haxis, hother⟩ := m.destination_inPlane plane setup target
  · have harc := Arc.resolve_inPlane plane setup.arcTolerance m.position stop clockwise center radius
    rw [hstop, hstop']
    change plane.Matches _ ((Arc.resolve setup.arcTolerance plane (m.position.inPlane plane)
      (stop.inPlane plane) clockwise (center.inPlane plane) radius).map _)
    rw [harc]
    simp only [Except.bind]
    cases h : Arc.resolve setup.arcTolerance .xy m.position stop clockwise center radius with
    | error cause => exact .refused (Arc.resolve_error .xy h)
    | ok arc => exact .done
  · rw [haxis, hother]
    exact .outOfReach

/-- A helix in the `XY` plane, and the same one around the `X` axis. -/
theorem Machine.helix_matches :
    let m := Machine.ofSetup {}
    let target : AxisWords := ⟨some 10, none, some 2, none, none, none⟩
    m.plane = .xy ∧ (m.apply {} (.arcMove true target { i := some 5 } none)).isOk = true ∧
      Plane.Matches .yz (m.apply {} (.arcMove true target { i := some 5 } none))
        ((m.inPlane .yz).apply (Setup.inPlane .yz {})
          (.arcMove true ⟨some 2, some 10, none, none, none, none⟩ { j := some 5 } none)) := by
  intro m target
  exact ⟨rfl, by decide +kernel, apply_matches .yz {} m rfl true target { i := some 5 } none⟩

end Toolpath
