import Toolpath.Proofs.Machine.ArcSense

/-!
# On which grounds an arc is refused

`Simulator.resolve_arc` finds the circle of an arc by the way to the center or by a radius. Whichever
form was used, an arc that is accepted is drawn around its center as seen from its start, and nothing
else of the form is left in it. An arc that is refused is refused on the first ground that applies: an
axis out of reach, then an offset along the normal of the plane, then what the form itself asks for.

* `Ground.First`, `Ground.Clear`, `Ground.Decides`: what is refused on the first of several grounds, and goes
  through if none applies. Grounds of steps add up to grounds of a sequence (`Decides.bind`).
* `Machine.arcGrounds`: the grounds for arcs, in their order.
* `Arc.Coherent`: center, radius and start angle of an arc agree.
* `Machine.apply_arc_coherent`: arc commands.
-/

namespace Toolpath

/-! ## Grounds -/

/-- A ground on which a command is refused: when it applies, and the reason that it gives. -/
structure Ground where
  applies : Prop
  cause : MotionError

namespace Ground

/-- The reason that is given by the first ground that applies. -/
inductive First : List Ground → MotionError → Prop where
  | here {g : Ground} {rest : List Ground} (h : g.applies) : First (g :: rest) g.cause
  | later {g : Ground} {rest : List Ground} {cause : MotionError} (h : ¬ g.applies)
    (hrest : First rest cause) : First (g :: rest) cause

/-- No ground applies. -/
def Clear (grounds : List Ground) : Prop := ∀ g ∈ grounds, ¬ g.applies

/-- An outcome is refused on the first ground that applies, and accepted if none does. -/
structure Decides {α : Type} (grounds : List Ground) (outcome : Except MotionError α) : Prop where
  refused : ∀ cause, outcome = .error cause ↔ First grounds cause
  accepted : outcome.isOk = true ↔ Clear grounds

section Lists

variable {g : Ground} {grounds later : List Ground} {cause other : MotionError}

theorem First.not_clear (h : First grounds cause) : ¬ Clear grounds := by
  induction h with
  | here h => exact fun hclear => hclear _ List.mem_cons_self h
  | later _ _ ih => exact fun hclear => ih fun g hg => hclear g (List.mem_cons_of_mem _ hg)

/-- There is one first ground. -/
theorem First.unique (h : First grounds cause) (h' : First grounds other) : cause = other := by
  induction h with
  | here h =>
    cases h' with
    | here => rfl
    | later hn => exact absurd h hn
  | later hn _ ih =>
    cases h' with
    | here h => exact absurd h hn
    | later _ hrest => exact ih hrest

theorem First.append (h : First grounds cause) (later : List Ground) : First (grounds ++ later) cause := by
  induction h with
  | here h => exact .here h
  | later hn _ ih => exact .later hn ih

theorem First.after (hclear : Clear grounds) (h : First later cause) : First (grounds ++ later) cause := by
  induction grounds with
  | nil => exact h
  | cons g rest ih =>
    refine .later (hclear g List.mem_cons_self) (ih fun x hx => ?_)
    exact hclear x (List.mem_cons_of_mem g hx)

theorem clear_nil : Clear [] := fun _ h => nomatch h

theorem clear_append : Clear (grounds ++ later) ↔ Clear grounds ∧ Clear later := List.forall_mem_append

end Lists

/-! ## Judging -/

namespace Decides

variable {α β : Type} {g : Ground} {grounds later : List Ground} {outcome : Except MotionError α}

theorem error {cause : MotionError} (h : First grounds cause) :
    Decides grounds (.error cause : Except MotionError α) where
  refused other := by
    constructor
    · intro he
      cases he
      exact h
    · intro h'
      rw [h.unique h']
  accepted := iff_of_false Bool.false_ne_true h.not_clear

theorem ok (h : Clear grounds) (a : α) : Decides grounds (.ok a) where
  refused cause := iff_of_false (by nofun) fun hfirst => hfirst.not_clear h
  accepted := iff_of_true rfl h

/-- A ground that does not apply changes nothing. -/
theorem skip (hg : ¬ g.applies) (h : Decides grounds outcome) : Decides (g :: grounds) outcome := by
  cases outcome with
  | error cause => exact .error (.later hg ((h.refused cause).mp rfl))
  | ok a => exact .ok (List.forall_mem_cons.mpr ⟨hg, h.accepted.mp rfl⟩) a

/-- One check, before all others. -/
theorem check {p : Prop} [Decidable p] (hp : p ↔ g.applies) (h : Decides grounds outcome) :
    Decides (g :: grounds) (if p then .error g.cause else outcome) := by
  split
  · rename_i happlies
    exact .error (.here (hp.mp happlies))
  · rename_i hnot
    exact h.skip fun happlies => hnot (hp.mpr happlies)

/-- The grounds of a step come before those of what follows it. -/
theorem bind {f : α → Except MotionError β} (h : Decides grounds outcome)
    (hf : ∀ a, outcome = .ok a → Decides later (f a)) : Decides (grounds ++ later) (outcome.bind f) := by
  cases outcome with
  | error cause => exact .error (((h.refused cause).mp rfl).append later)
  | ok a =>
    have hclear := h.accepted.mp rfl
    have hnext := hf a rfl
    show Decides _ (f a)
    cases hfa : f a with
    | error cause => exact .error (.after hclear ((hnext.refused cause).mp hfa))
    | ok b =>
      rw [hfa] at hnext
      exact .ok (clear_append.mpr ⟨hclear, hnext.accepted.mp rfl⟩) b

theorem map (h : Decides grounds outcome) (f : α → β) : Decides grounds (outcome.map f) := by
  cases outcome with
  | error cause => exact .error ((h.refused cause).mp rfl)
  | ok a => exact .ok (h.accepted.mp rfl) (f a)

end Decides

end Ground

open Ground

/-! ## The end of a motion -/

/-- Every axis has its place in the order, after those of lesser index. -/
theorem Axis.all_split (axis : Axis) :
    ∃ before after, all = before ++ axis :: after ∧ ∀ other ∈ before, other.index < axis.index := by
  have hsorted : all.Pairwise fun axis other => axis.index < other.index := by decide
  have hmem : axis ∈ all := by cases axis <;> decide
  obtain ⟨before, after, hsplit⟩ := List.append_of_mem hmem
  rw [hsplit, List.pairwise_append] at hsorted
  exact ⟨before, after, hsplit, fun other ho => hsorted.2.2 other ho axis List.mem_cons_self⟩

namespace Machine

variable (setup : Setup) (m : Machine) (target : AxisWords)

/-- The axes are tried in their order. -/
def reachGrounds : List Ground :=
  Axis.all.map fun axis => ⟨m.OutOfReach setup target axis, .nonFinitePosition axis⟩

/-- The point that the words of a motion name, whether all of it is finite or not. -/
def goal : Position :=
  .ofFn fun axis => ((target.get axis).map (m.resolved setup axis)).getD (m.position.get axis)

theorem destination_decided : Decides (m.reachGrounds setup target) (m.destination setup target) := by
  have h := destination_endsAt setup m target
  generalize m.destination setup target = outcome at h
  cases h with
  | @reached stop hreach _ =>
    refine .ok (fun g hg => ?_) stop
    obtain ⟨axis, -, rfl⟩ := List.mem_map.mp hg
    exact hreach axis
  | @outOfReach axis haxis hfirst =>
    obtain ⟨before, after, hsplit, hbefore⟩ := axis.all_split
    rw [reachGrounds, hsplit, List.map_append, List.map_cons]
    refine .error (.after (fun g hg => ?_) (.here haxis))
    obtain ⟨other, ho, rfl⟩ := List.mem_map.mp hg
    exact hfirst other (hbefore other ho)

variable {setup m target}

theorem goal_of_destination {stop : Position} (h : m.destination setup target = .ok stop) :
    stop = m.goal setup target := by
  unfold destination AxisWords.resolveOver at h
  split at h <;> cases h
  rfl

end Machine

/-! ## The two forms -/

/-- The distance of two points in a plane. -/
def PlanarPoint.distance (p q : PlanarPoint) : Float :=
  Number.hypot (p.first - q.first) (p.second - q.second)

namespace Circle

variable (tolerance : Float) (start stop : PlanarPoint)

/-- With offsets, the start lies off the center, and the end as far from it as the start. -/
def offsetGrounds (first second : Option Float) : List Ground :=
  let center : PlanarPoint := ⟨start.first + first.getD 0, start.second + second.getD 0⟩
  let difference := (start.distance center - stop.distance center).abs
  [⟨start.distance center < epsilon, .arcZeroRadius⟩,
    ⟨tolerance < difference ∧ relativeArcTolerance * start.distance center < difference,
      .arcRadiusMismatch (start.distance center) (stop.distance center)⟩]

/-- With a radius, the ends are apart, but not farther than twice the radius. -/
def radiusGrounds (radius : Float) : List Ground :=
  let chord := stop.distance start
  [⟨chord < epsilon, .arcFullCircleRadius⟩,
    ⟨radius.abs < epsilon, .arcZeroRadius⟩,
    ⟨radius * radius - chord / 2 * (chord / 2) < 0 ∧ tolerance < chord / 2 - radius.abs,
      .arcRadiusTooSmall radius chord⟩]

theorem ofOffsets_decided (first second : Option Float) :
    Decides (offsetGrounds tolerance start stop first second)
      (ofOffsets tolerance start stop first second) := by
  unfold ofOffsets offsetGrounds
  refine .check .rfl (.check ?_ (.ok clear_nil _))
  simp only [Bool.and_eq_true, decide_eq_true_eq]
  rfl

theorem ofRadius_decided (clockwise : Bool) (radius : Float) :
    Decides (radiusGrounds tolerance start stop radius)
      (ofRadius tolerance start stop clockwise radius) := by
  unfold ofRadius radiusGrounds
  refine .check .rfl (.check .rfl (.check ?_ (.ok clear_nil _)))
  simp only [Bool.and_eq_true, decide_eq_true_eq]
  rfl

end Circle

namespace Arc

/-- The linear axes are looked at for an offset along the normal. -/
def wordGrounds (plane : Plane) (offsets : CenterOffsets) : List Ground :=
  [.x, .y, .z].map fun axis =>
    ⟨(offsets.along axis).isSome = true ∧ axis = plane.normal, .invalidArcWord (offsetLetter axis) plane⟩

/-- What the form of an arc asks for. Without offsets or radius it has no form. -/
def formGrounds (tolerance : Float) (plane : Plane) (start stop : PlanarPoint) (offsets : CenterOffsets)
    (radius : Option Float) : List Ground :=
  if offsets.isEmpty = false then
    Circle.offsetGrounds tolerance start stop (offsets.along plane.first) (offsets.along plane.second)
  else match radius with
    | some r => Circle.radiusGrounds tolerance start stop r
    | none => [⟨True, .arcUnderspecified⟩]

theorem circle_decided (tolerance : Float) (plane : Plane) (start stop : PlanarPoint) (clockwise : Bool)
    (offsets : CenterOffsets) (radius : Option Float) :
    Decides (formGrounds tolerance plane start stop offsets radius)
      (circle tolerance plane start stop clockwise offsets radius) := by
  unfold formGrounds circle
  cases offsets.isEmpty with
  | false => exact Circle.ofOffsets_decided tolerance start stop _ _
  | true =>
    cases radius with
    | none => exact .error (.here trivial)
    | some r => exact Circle.ofRadius_decided tolerance start stop clockwise r

theorem resolve_decided (tolerance : Float) (plane : Plane) (start stop : Position) (clockwise : Bool)
    (offsets : CenterOffsets) (radius : Option Float) :
    Decides (wordGrounds plane offsets ++
        formGrounds tolerance plane (plane.project start) (plane.project stop) offsets radius)
      (resolve tolerance plane start stop clockwise offsets radius) := by
  have hform := (circle_decided tolerance plane (plane.project start) (plane.project stop) clockwise offsets
    radius).map (onCircle plane start stop clockwise)
  have hnormal : (offsets.along plane.normal).isSome = true ↔
      (offsets.along plane.normal).isSome = true ∧ plane.normal = plane.normal := (and_iff_left rfl).symm
  rw [resolve_eq]
  -- only the ground of the axis that is the normal can apply
  have hother : ∀ axis, axis ≠ plane.normal →
      ¬ ((offsets.along axis).isSome = true ∧ axis = plane.normal) := fun _ hne h => hne h.2
  cases plane with
  | xy => exact .skip (hother .x (by decide)) (.skip (hother .y (by decide)) (.check hnormal hform))
  | xz => exact .skip (hother .x (by decide)) (.check hnormal (.skip (hother .z (by decide)) hform))
  | yz => exact .check hnormal (.skip (hother .y (by decide)) (.skip (hother .z (by decide)) hform))

end Arc

/-! ## Coherent arcs -/

/-- The arc tangent is at most half a turn to either side, and a number if its arguments are. -/
structure TangentBounded (second first : Float) : Prop where
  lower : ¬ Float.atan2 second first < -halfTurn
  upper : ¬ Float.atan2 second first > halfTurn
  isNaN : (Float.atan2 second first).isNaN = true → second.isNaN = true ∨ first.isNaN = true

/-- A direction is the arc tangent, as long as that is bounded. -/
theorem direction_eq_atan2 {second first : Float} (h : TangentBounded second first) :
    direction second first = Float.atan2 second first := by
  have hnumber : ((Float.atan2 second first).isNaN && !(second.isNaN || first.isNaN)) = false := by
    cases hn : (Float.atan2 second first).isNaN with
    | false => rfl
    | true =>
      rw [Bool.true_and, Bool.not_eq_false', Bool.or_eq_true]
      exact h.isNaN hn
  simp only [direction, hnumber, Bool.false_eq_true, if_false, clamp, if_neg h.lower, if_neg h.upper]

theorem CenterOffsets.isEmpty_eq_false_iff {o : CenterOffsets} :
    o.isEmpty = false ↔ ∃ axis v, o.along axis = some v := by
  obtain ⟨i, j, k⟩ := o
  constructor
  · intro h
    rcases i with - | v
    · rcases j with - | v
      · rcases k with - | v
        · cases h
        · exact ⟨.z, v, rfl⟩
      · exact ⟨.y, v, rfl⟩
    · exact ⟨.x, v, rfl⟩
  · rintro ⟨axis, v, h⟩
    cases axis <;> cases h <;> simp [isEmpty]

namespace Arc

/-- An arc that agrees with the place where it starts and the words that it was asked for by. -/
structure Coherent (a : Arc) (start : Position) (offsets : CenterOffsets) (radius : Option Float) : Prop where
  /-- No offset is along the normal. -/
  inPlane : ∀ axis v, offsets.along axis = some v → axis ≠ a.plane.normal
  given : (∃ axis v, offsets.along axis = some v) ∨ ∃ r, radius = some r
  /-- The radius is the distance from the center to the start. -/
  radius : a.radius = Number.hypot (start.get a.plane.first - a.center.get a.plane.first)
    (start.get a.plane.second - a.center.get a.plane.second)
  /-- The start angle is the direction from the center to the start. -/
  startAngle : a.startAngle = direction (start.get a.plane.second - a.center.get a.plane.second)
    (start.get a.plane.first - a.center.get a.plane.first)
  startAngle_eq : TangentBounded (start.get a.plane.second - a.center.get a.plane.second)
      (start.get a.plane.first - a.center.get a.plane.first) →
    a.startAngle = Float.atan2 (start.get a.plane.second - a.center.get a.plane.second)
      (start.get a.plane.first - a.center.get a.plane.first)
  level : a.LevelWith start

variable {tolerance : Float} {plane : Plane} {start stop : Position} {clockwise : Bool}
  {offsets : CenterOffsets} {radius : Option Float} {a : Arc}

theorem circle_given {start stop : PlanarPoint} {c : Circle}
    (h : circle tolerance plane start stop clockwise offsets radius = .ok c) :
    (∃ axis v, offsets.along axis = some v) ∨ ∃ r, radius = some r := by
  rw [← CenterOffsets.isEmpty_eq_false_iff]
  cases hempty : offsets.isEmpty with
  | false => exact .inl rfl
  | true =>
    cases radius with
    | none => simp [circle, hempty] at h
    | some r => exact .inr ⟨r, rfl⟩

/-- Both forms lead to the same kind of arc. -/
theorem resolve_coherent (h : resolve tolerance plane start stop clockwise offsets radius = .ok a) :
    a.plane = plane ∧ a.Coherent start offsets radius := by
  obtain ⟨hplane, hlevel⟩ := resolve_ok h
  rw [resolve_eq] at h
  split at h
  · cases h
  · rename_i hnormal
    obtain ⟨c, hc, rfl⟩ := exists_of_map_ok h
    -- seen in the plane, the center of the arc is that of its circle
    have hcenter := project_place plane start c.center
    have hfirst : (plane.place start c.center).get plane.first = c.center.first :=
      congrArg PlanarPoint.first hcenter
    have hsecond : (plane.place start c.center).get plane.second = c.center.second :=
      congrArg PlanarPoint.second hcenter
    have hangle : (onCircle plane start stop clockwise c).startAngle =
        direction (start.get plane.second - (plane.place start c.center).get plane.second)
          (start.get plane.first - (plane.place start c.center).get plane.first) := by
      rw [hfirst, hsecond]
      rfl
    refine ⟨hplane, fun axis v hv hne => hnormal ?_, circle_given hc, ?_, hangle, fun hbounded => ?_,
      hlevel⟩
    · have haxis : axis = plane.normal := hne
      rw [← haxis, hv]
      rfl
    · show c.radius = Number.hypot (start.get plane.first - (plane.place start c.center).get plane.first)
        (start.get plane.second - (plane.place start c.center).get plane.second)
      rw [hfirst, hsecond]
      exact (circle_ok hc).1
    · exact hangle.trans (direction_eq_atan2 hbounded)

/-- Center offsets win over a radius. -/
theorem resolve_of_offsets (hgiven : offsets.isEmpty = false) (other : Option Float) :
    resolve tolerance plane start stop clockwise offsets other =
      resolve tolerance plane start stop clockwise offsets radius := by
  simp only [resolve_eq, circle, hgiven, Bool.not_false, if_true]

end Arc

/-! ## Commands -/

namespace Machine

/-- The grounds on which an arc command is refused, in their order. -/
def arcGrounds (setup : Setup) (m : Machine) (target : AxisWords) (center : CenterOffsets)
    (radius : Option Float) : List Ground :=
  m.reachGrounds setup target ++ (Arc.wordGrounds m.plane center ++
    Arc.formGrounds setup.arcTolerance m.plane (m.plane.project m.position)
      (m.plane.project (m.goal setup target)) center radius)

/-- **Arcs of either form are coherent.** An arc that is accepted has its offsets in the plane and a form, and
its center, radius and start angle agree with its start. If any offset is given, nothing depends on the
radius. An arc is refused on the first ground that applies, and accepted if none does. -/
theorem apply_arc_coherent (setup : Setup) (m : Machine) (clockwise : Bool) (target : AxisWords)
    (center : CenterOffsets) (radius : Option Float) :
    (∀ m' motion, m.apply setup (.arcMove clockwise target center radius) = .ok (m', motion) →
      ∃ r a, motion = some r ∧ r.start = m.position ∧ r.arc = some a ∧ a.plane = m.plane ∧
        a.Coherent r.start center radius) ∧
    ((∃ axis v, center.along axis = some v) → ∀ other,
      m.apply setup (.arcMove clockwise target center other) =
        m.apply setup (.arcMove clockwise target center radius)) ∧
    Decides (m.arcGrounds setup target center radius)
      (m.apply setup (.arcMove clockwise target center radius)) := by
  refine ⟨fun m' motion h => ?_, fun hgiven other => ?_, ?_⟩
  · obtain ⟨stop, -, h⟩ := exists_of_bind_ok h
    obtain ⟨a, ha, h⟩ := exists_of_bind_ok h
    cases h
    obtain ⟨hplane, hcoherent⟩ := Arc.resolve_coherent ha
    exact ⟨_, a, rfl, rfl, rfl, hplane, hcoherent⟩
  · have hempty := CenterOffsets.isEmpty_eq_false_iff.mpr hgiven
    simp only [apply_arcMove]
    congr 1
    funext stop
    rw [Arc.resolve_of_offsets hempty]
  · rw [apply_arcMove]
    refine (m.destination_decided setup target).bind fun stop hstop => ?_
    rw [goal_of_destination hstop]
    exact (Arc.resolve_decided setup.arcTolerance m.plane m.position (m.goal setup target) clockwise center
      radius).map _

end Machine

end Toolpath
