import Toolpath.Machine

/-!
# What a command does to the machine's place

A command that `Simulator.apply` carries out leaves the machine where it is or makes one motion, which
starts there.

* `exists_of_bind_ok`: taking a sequence of refusable steps apart.
* `Arc.onCircle`, `Arc.resolve_eq`: the steps of resolving an arc.
* `Arc.resolve_ok`: an arc lies in the plane that was asked for, level with its start.
* `Motion.Sound`: a motion agrees with the machine after it, and its arc with its start.
* `Machine.Effect`, `Machine.apply_effect`: all that a command can do.
-/

namespace Toolpath

/-- A sequence of steps that is not refused: neither is any of its steps. -/
theorem exists_of_bind_ok {ε α β : Type} {x : Except ε α} {f : α → Except ε β} {b : β}
    (h : x >>= f = .ok b) : ∃ a, x = .ok a ∧ f a = .ok b := by
  cases x with
  | error e => cases h
  | ok a => exact ⟨a, rfl, h⟩

theorem bind_eq_ok_iff {ε α β : Type} {x : Except ε α} {f : α → Except ε β} {b : β} :
    (x >>= f) = .ok b ↔ ∃ a, x = .ok a ∧ f a = .ok b := by
  refine ⟨exists_of_bind_ok, ?_⟩
  rintro ⟨a, hx, hf⟩
  rw [hx]
  exact hf

/-! ## Arcs -/

theorem Plane.get_place (plane : Plane) (p : Position) (at_ : PlanarPoint) {axis : Axis}
    (h₁ : axis ≠ plane.first) (h₂ : axis ≠ plane.second) :
    (plane.place p at_).get axis = p.get axis := by
  rw [place, PerAxis.get_set_ne _ _ h₂, PerAxis.get_set_ne _ _ h₁]

/-- The arc on a circle, from one point to another. -/
def Arc.onCircle (plane : Plane) (start stop : Position) (clockwise : Bool) (c : Circle) : Arc :=
  let s := plane.project start
  let e := plane.project stop
  let startAngle := direction (s.second - c.center.second) (s.first - c.center.first)
  let endAngle := direction (e.second - c.center.second) (e.first - c.center.first)
  { plane
    center := plane.place start c.center
    radius := c.radius
    startAngle
    sweep :=
      if c.whole then (if clockwise then -fullTurn else fullTurn)
      else sweepBetween clockwise startAngle endAngle }

/-- Resolving an arc: no offset along the normal, then the circle, then the arc on it. -/
theorem Arc.resolve_eq (tolerance : Float) (plane : Plane) (start stop : Position) (clockwise : Bool)
    (offsets : CenterOffsets) (radius : Option Float) :
    resolve tolerance plane start stop clockwise offsets radius =
      if (offsets.along plane.normal).isSome then .error (.invalidArcWord (offsetLetter plane.normal) plane)
      else (circle tolerance plane (plane.project start) (plane.project stop) clockwise offsets radius).map
        (onCircle plane start stop clockwise) := by
  unfold resolve
  dsimp only
  cases circle tolerance plane (plane.project start) (plane.project stop) clockwise offsets radius <;> rfl

/-- Outside of its plane, the center of an arc is level with a point. -/
def Arc.LevelWith (a : Arc) (p : Position) : Prop :=
  ∀ axis, axis ≠ a.plane.first → axis ≠ a.plane.second → a.center.get axis = p.get axis

theorem Arc.resolve_ok {tolerance : Float} {plane : Plane} {start stop : Position} {clockwise : Bool}
    {offsets : CenterOffsets} {radius : Option Float} {a : Arc}
    (h : resolve tolerance plane start stop clockwise offsets radius = .ok a) :
    a.plane = plane ∧ a.LevelWith start := by
  unfold resolve at h
  split at h
  · cases h
  · obtain ⟨c, -, h⟩ := exists_of_bind_ok h
    cases h
    exact ⟨rfl, fun axis h₁ h₂ => plane.get_place start c.center h₁ h₂⟩

/-! ## Motions -/

/-- A motion that agrees with the machine after it and, if it is an arc, with its start. -/
structure Motion.Sound (r : Motion) : Prop where
  position : r.after.position = r.stop
  mode : r.after.motionMode = r.kind
  arc_iff : r.arc.isSome ↔ r.kind.isArc
  plane : ∀ a, r.arc = some a → a.plane = r.after.plane
  level : ∀ a, r.arc = some a → a.LevelWith r.start

namespace Machine

variable {setup : Setup} {m m' : Machine} {action : Action} {motion : Option Motion}

/-- What a command does to the machine's place: it stays, or it makes a motion that starts there. -/
inductive Effect (m : Machine) : Machine → Option Motion → Prop where
  | stay {m' : Machine} (h : m'.position = m.position) : Effect m m' none
  | move {r : Motion} (hs : r.start = m.position) (hr : r.Sound) : Effect m r.after (some r)

/-- The motion to a point is sound if its kind asks for its arc, and the arc fits to the machine. -/
theorem moveTo_effect (m : Machine) {kind : MotionKind} (stop : Position) {arc : Option Arc}
    (hk : arc.isSome ↔ kind.isArc)
    (ha : ∀ a, arc = some a → a.plane = m.plane ∧ a.LevelWith m.position) :
    m.Effect (m.moveTo kind stop arc).1 (m.moveTo kind stop arc).2 := by
  have hr : Motion.Sound
      { kind, start := m.position, stop, arc, after := (m.moveTo kind stop arc).1 } :=
    { position := rfl
      mode := rfl
      arc_iff := hk
      plane := fun a h => (ha a h).1
      level := fun a h => (ha a h).2 }
  exact .move rfl hr

theorem applyAuxiliary_position (m : Machine) (action : Auxiliary) :
    (m.applyAuxiliary action).position = m.position := by
  cases action <;> rfl

/-- **Only motions move.** -/
theorem apply_effect (h : m.apply setup action = .ok (m', motion)) : m.Effect m' motion := by
  cases action with
  | linearMove rapid target =>
    obtain ⟨stop, -, h⟩ := exists_of_bind_ok h
    cases h
    refine m.moveTo_effect stop ?_ ?_
    · cases rapid <;> simp [MotionKind.isArc]
    · intro a ha
      cases ha
  | arcMove clockwise target center radius =>
    obtain ⟨stop, -, h⟩ := exists_of_bind_ok h
    obtain ⟨arc, harc, h⟩ := exists_of_bind_ok h
    cases h
    refine m.moveTo_effect stop ?_ ?_
    · cases clockwise <;> simp [arcKind, MotionKind.isArc]
    · intro a ha
      cases ha
      exact Arc.resolve_ok harc
  | setAxisOffset words =>
    obtain ⟨offset, -, h⟩ := exists_of_bind_ok h
    cases h
    exact .stay rfl
  | auxiliary action =>
    cases h
    exact .stay (m.applyAuxiliary_position action)
  | _ =>
    cases h
    exact .stay rfl

end Machine

end Toolpath
