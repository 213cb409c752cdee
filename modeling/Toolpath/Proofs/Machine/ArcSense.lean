import Toolpath.Proofs.Machine.Merge
import Toolpath.Proofs.Number.Rounding

/-!
# The sense of an arc

The sweep that `Simulator.resolve_arc` gives an arc is the difference of two angles, corrected once by a
full turn if it goes against the sense of the arc. Angles jump at the half turn. If the ends of an arc
are seen on opposite sides of it, and so close to it that the difference is rounded to a full turn, the
correction leaves nothing: such an arc has no sweep. All other arcs sweep at most a full turn, in the
sense that they were asked for.

* `IsAngle`, `direction_isAngle`: directions are at most half a turn to either side.
* `corrected_clockwise`, `corrected_counterClockwise`: what the correction comes to.
* `Arc.InSense`, `Arc.Jumps`, `Arc.sweepBetween_inSense_iff`: sweeps in a sense, and angles that lose it.
* `Arc.Jumps.atCut`: where angles jump.
* `Arc.Sensed`, `Arc.onCircle_sense`, `Machine.apply_arc_sense`: arcs, and the commands that make them.
-/

namespace Toolpath

open Number

/-! ## Angles -/

section Angles

variable {x low high : Float}

/-- A finite angle, at most half a turn to either side. -/
structure IsAngle (x : Float) : Prop where
  isFinite : x.isFinite = true
  between : -grains halfTurn ≤ grains x ∧ grains x ≤ grains halfTurn

theorem grains_halfTurn : 0 < grains halfTurn ∧ grains (-halfTurn) = -grains halfTurn := by
  decide +kernel

theorem grains_fullTurn :
    grains fullTurn = 2 * grains halfTurn ∧ grains (-fullTurn) = -grains fullTurn := by
  decide +kernel

/-- Bounds in their order hold. -/
theorem clamp_between (hx : x.isNaN = false) (hlow : low.isFinite = true) (hhigh : high.isFinite = true)
    (h : grains low ≤ grains high) :
    grains low ≤ grains (clamp low high x) ∧ grains (clamp low high x) ≤ grains high := by
  unfold clamp
  dsimp only
  split
  · have hnot : ¬ high < low := by
      rw [lt_iff_grains hhigh hlow]
      omega
    rw [if_neg hnot]
    omega
  · rename_i hl
    split
    · omega
    · rename_i hh
      have hfin := isFinite_of_between hlow hhigh hx hl hh
      rw [lt_iff_grains hfin hlow] at hl
      rw [gt_iff_lt, lt_iff_grains hhigh hfin] at hh
      omega

/-- A value between the bounds is not changed. -/
theorem clamp_of_between (hx : x.isFinite = true) (hlow : low.isFinite = true)
    (hhigh : high.isFinite = true) (hl : grains low ≤ grains x) (hh : grains x ≤ grains high) :
    clamp low high x = x := by
  have hl' : ¬ x < low := by
    rw [lt_iff_grains hx hlow]
    omega
  have hh' : ¬ high < x := by
    rw [lt_iff_grains hhigh hx]
    omega
  unfold clamp
  dsimp only
  rw [if_neg hl', if_neg hh']

theorem direction_isAngle {second first : Float} (hs : second.isNaN = false) (hf : first.isNaN = false) :
    IsAngle (direction second first) := by
  have hhalf := grains_halfTurn
  have hfin := isFinite_direction hs hf
  refine ⟨hfin, ?_⟩
  unfold direction
  dsimp only
  rw [hs, hf]
  cases hn : (Float.atan2 second first).isNaN with
  | true =>
    change -_ ≤ grains 0 ∧ grains 0 ≤ _
    rw [grains_zero]
    omega
  | false =>
    rw [← hhalf.2]
    exact clamp_between hn (by decide) (by decide) (by omega)

end Angles

/-! ## Sweeps -/

section Sweeps

variable {s e : Float}

/-- Two steps below half a turn. -/
def nearHalfTurn : Float := 3.1415926535897922

/-- One step below a full turn. -/
def nearFullTurn : Float := 6.283185307179585

theorem isFinite_fullTurn : fullTurn.isFinite = true ∧ (-fullTurn).isFinite = true := by decide

theorem grains_near :
    grains nearFullTurn = grains nearHalfTurn + grains halfTurn ∧
      grains nearFullTurn < grains fullTurn ∧ grains (-nearFullTurn) = -grains nearFullTurn ∧
      grains (-nearHalfTurn) = -grains nearHalfTurn := by
  decide +kernel

/-- The angle from one direction to another, before it is corrected. -/
theorem turn_between (hs : IsAngle s) (he : IsAngle e) :
    (e - s).isFinite = true ∧ -grains fullTurn ≤ grains (e - s) ∧ grains (e - s) ≤ grains fullTurn := by
  obtain ⟨hfull, hneg⟩ := grains_fullTurn
  have hsb := hs.between
  have heb := he.between
  have h := rounded_sub he.isFinite hs.isFinite
  rw [← hneg]
  exact h.between isFinite_fullTurn.2 isFinite_fullTurn.1 (by omega) (by omega)

/-- Clockwise, a turn that goes the other way is taken back by a full one. -/
theorem corrected_clockwise {t : Float} (ht : t.isFinite = true)
    (hb : -grains fullTurn ≤ grains t ∧ grains t ≤ grains fullTurn) :
    let x := if t >= 0 then t - fullTurn else t
    x.isFinite = true ∧ -grains fullTurn ≤ grains x ∧ grains x ≤ 0 ∧
      (grains x < 0 ↔ grains t < grains fullTurn) := by
  intro x
  obtain ⟨hfull, hneg⟩ := grains_fullTurn
  have hpos := grains_halfTurn
  by_cases h : t ≥ 0
  · have hx : x = t - fullTurn := if_pos h
    rw [ge_iff_le, le_iff_grains isFinite_zero ht, grains_zero] at h
    have hround := rounded_sub ht isFinite_fullTurn.1
    obtain ⟨hfin, hl, hh⟩ := hround.between isFinite_fullTurn.2 isFinite_zero (by omega)
      (by rw [grains_zero]; omega)
    have hsign := hround.sign hfin
    rw [grains_zero] at hh
    rw [hx]
    refine ⟨hfin, ?_⟩
    omega
  · have hx : x = t := if_neg h
    rw [ge_iff_le, le_iff_grains isFinite_zero ht, grains_zero] at h
    rw [hx]
    refine ⟨ht, ?_⟩
    omega

/-- Counter-clockwise, a turn that goes the other way is advanced by a full one. -/
theorem corrected_counterClockwise {t : Float} (ht : t.isFinite = true)
    (hb : -grains fullTurn ≤ grains t ∧ grains t ≤ grains fullTurn) :
    let x := if t <= 0 then t + fullTurn else t
    x.isFinite = true ∧ 0 ≤ grains x ∧ grains x ≤ grains fullTurn ∧
      (0 < grains x ↔ -grains fullTurn < grains t) := by
  intro x
  obtain ⟨hfull, hneg⟩ := grains_fullTurn
  have hpos := grains_halfTurn
  by_cases h : t ≤ 0
  · have hx : x = t + fullTurn := if_pos h
    rw [le_iff_grains ht isFinite_zero, grains_zero] at h
    have hround := rounded_add ht isFinite_fullTurn.1
    obtain ⟨hfin, hl, hh⟩ := hround.between isFinite_zero isFinite_fullTurn.1
      (by rw [grains_zero]; omega) (by omega)
    have hsign := hround.sign hfin
    rw [grains_zero] at hl
    rw [hx]
    refine ⟨hfin, ?_⟩
    omega
  · have hx : x = t := if_neg h
    rw [le_iff_grains ht isFinite_zero, grains_zero] at h
    rw [hx]
    refine ⟨ht, ?_⟩
    omega

end Sweeps

namespace Arc

variable {clockwise : Bool} {s e : Float}

/-- A sweep in a sense, of at most a full turn. -/
def InSense (clockwise : Bool) (sweep : Float) : Prop :=
  if clockwise then -fullTurn ≤ sweep ∧ sweep < 0 else 0 < sweep ∧ sweep ≤ fullTurn

/-- Two angles that are a full turn apart, against the sense. -/
def Jumps (clockwise : Bool) (startAngle endAngle : Float) : Prop :=
  if clockwise then fullTurn ≤ endAngle - startAngle else endAngle - startAngle ≤ -fullTurn

/-- Two angles next to the half turn, on opposite sides of it. -/
def AtCut (clockwise : Bool) (startAngle endAngle : Float) : Prop :=
  if clockwise then startAngle < -nearHalfTurn ∧ nearHalfTurn < endAngle
  else nearHalfTurn < startAngle ∧ endAngle < -nearHalfTurn

/-- Only angles that jump lose the sense, and with it all of the sweep. -/
theorem sweepBetween_inSense_iff (clockwise : Bool) (hs : IsAngle s) (he : IsAngle e) :
    (InSense clockwise (sweepBetween clockwise s e) ↔ ¬ Jumps clockwise s e) ∧
      (Jumps clockwise s e → (sweepBetween clockwise s e == 0) = true) := by
  obtain ⟨hfull, hneg⟩ := grains_fullTurn
  have hpos := grains_halfTurn
  obtain ⟨hfin, hb⟩ := turn_between hs he
  unfold InSense Jumps sweepBetween
  cases clockwise with
  | true =>
    obtain ⟨hx, hl, hh, hzero⟩ := corrected_clockwise hfin hb
    dsimp only at hx hl hh hzero ⊢
    simp only [if_true]
    generalize (if e - s >= 0 then e - s - fullTurn else e - s) = x at hx hl hh hzero ⊢
    rw [clamp_of_between hx isFinite_fullTurn.2 isFinite_fullTurn.1 (by omega) (by omega),
      le_iff_grains isFinite_fullTurn.2 hx, lt_iff_grains hx isFinite_zero,
      le_iff_grains isFinite_fullTurn.1 hfin, beq_iff_grains hx isFinite_zero, grains_zero]
    omega
  | false =>
    obtain ⟨hx, hl, hh, hzero⟩ := corrected_counterClockwise hfin hb
    dsimp only at hx hl hh hzero ⊢
    simp only [Bool.false_eq_true, if_false]
    generalize (if e - s <= 0 then e - s + fullTurn else e - s) = x at hx hl hh hzero ⊢
    rw [clamp_of_between hx isFinite_fullTurn.2 isFinite_fullTurn.1 (by omega) (by omega),
      le_iff_grains hx isFinite_fullTurn.1, lt_iff_grains isFinite_zero hx,
      le_iff_grains hfin isFinite_fullTurn.2, beq_iff_grains hx isFinite_zero, grains_zero]
    omega

/-- Angles jump next to the half turn only: any other two are less than a full turn apart, and stay so when
their difference is rounded. -/
theorem Jumps.atCut (h : Jumps clockwise s e) (hs : IsAngle s) (he : IsAngle e) :
    AtCut clockwise s e := by
  obtain ⟨hsplit, hlt, hneg, hneg'⟩ := grains_near
  obtain ⟨hfull, hnegfull⟩ := grains_fullTurn
  have hnear : nearFullTurn.isFinite = true ∧ (-nearFullTurn).isFinite = true ∧
    nearHalfTurn.isFinite = true ∧ (-nearHalfTurn).isFinite = true := by decide
  obtain ⟨hfin, hbetween⟩ := turn_between hs he
  have hsb := hs.between
  have heb := he.between
  have hround := rounded_sub he.isFinite hs.isFinite
  unfold Jumps at h
  unfold AtCut
  cases clockwise with
  | true =>
    have hle := hround.grains_le hfin hnear.1
    simp only [if_true] at h ⊢
    rw [le_iff_grains isFinite_fullTurn.1 hfin] at h
    rw [lt_iff_grains hs.isFinite hnear.2.2.2, lt_iff_grains hnear.2.2.1 he.isFinite]
    omega
  | false =>
    have hle := hround.le_grains hfin hnear.2.1
    simp only [Bool.false_eq_true, if_false] at h ⊢
    rw [le_iff_grains hfin isFinite_fullTurn.2] at h
    rw [lt_iff_grains hnear.2.2.1 hs.isFinite, lt_iff_grains he.isFinite hnear.2.2.2]
    omega

/-! ## Arcs -/

/-- The angle at which an arc ends, seen from its center. -/
def endAngle (a : Arc) (stop : Position) : Float :=
  let c := a.plane.project a.center
  let e := a.plane.project stop
  direction (e.second - c.second) (e.first - c.first)

/-- An arc that runs in a sense. -/
structure Sensed (a : Arc) (clockwise : Bool) : Prop where
  isClockwise : a.isClockwise = clockwise
  sweep : InSense clockwise a.sweep

/-- Offsets from a point to the center, with an end at that point: they ask for a whole circle. -/
def Closes (plane : Plane) (start stop : Position) (offsets : CenterOffsets) : Prop :=
  offsets.isEmpty = false ∧ (stop.get plane.first - start.get plane.first).abs < epsilon ∧
    (stop.get plane.second - start.get plane.second).abs < epsilon

instance (plane : Plane) (start stop : Position) (offsets : CenterOffsets) :
    Decidable (Closes plane start stop offsets) :=
  inferInstanceAs (Decidable (_ ∧ _ ∧ _))

variable {tolerance : Float} {plane : Plane} {start stop : Position} {offsets : CenterOffsets}
  {radius : Option Float} {c : Circle}

theorem circle_whole
    (h : circle tolerance plane (plane.project start) (plane.project stop) clockwise offsets radius = .ok c) :
    c.whole = true ↔ Closes plane start stop offsets :=
  (circle_ok h).2

theorem project_place (plane : Plane) (p : Position) (at_ : PlanarPoint) :
    plane.project (plane.place p at_) = at_ := by
  cases plane <;> rfl

theorem sensed_iff {a : Arc} (h : a.sweep.isFinite = true) :
    a.Sensed clockwise ↔ InSense clockwise a.sweep := by
  refine ⟨Sensed.sweep, fun hs => ⟨?_, hs⟩⟩
  unfold InSense at hs
  unfold isClockwise
  cases clockwise with
  | true => exact decide_eq_true hs.2
  | false =>
    have hpos : 0 < a.sweep := hs.1
    rw [lt_iff_grains isFinite_zero h] at hpos
    refine decide_eq_false fun hneg => ?_
    rw [lt_iff_grains h isFinite_zero] at hneg
    omega

/-- The parts of a usable arc come from a finite start. -/
theorem Usable.isFinite_start
    (hc : circle tolerance plane (plane.project start) (plane.project stop) clockwise offsets radius = .ok c)
    (hu : (onCircle plane start stop clockwise c).Usable) :
    start.isFinite = true ∧ c.center.first.isFinite = true ∧ c.center.second.isFinite = true := by
  have hr : c.radius.isFinite = true := hu.radius
  rw [(circle_ok hc).1] at hr
  obtain ⟨hdf, hds⟩ := isFinite_of_hypot hr
  obtain ⟨hf, hcf⟩ := isFinite_of_sub hdf
  obtain ⟨hs, hcs⟩ := isFinite_of_sub hds
  refine ⟨Position.isFinite_iff.mpr fun axis => ?_, hcf, hcs⟩
  by_cases h₁ : axis = plane.first
  · rw [h₁]
    exact hf
  · by_cases h₂ : axis = plane.second
    · rw [h₂]
      exact hs
    · rw [← plane.get_place start c.center h₁ h₂]
      exact Position.isFinite_iff.mp hu.center axis

theorem endAngle_onCircle (plane : Plane) (start stop : Position) (clockwise : Bool) (c : Circle) :
    (onCircle plane start stop clockwise c).endAngle stop =
      direction (stop.get plane.second - c.center.second) (stop.get plane.first - c.center.first) := by
  have hcenter : plane.project (plane.place start c.center) = c.center := project_place plane start c.center
  unfold endAngle onCircle
  dsimp only
  rw [hcenter]
  rfl

theorem sweep_onCircle (plane : Plane) (start stop : Position) (clockwise : Bool) (c : Circle) :
    let a := onCircle plane start stop clockwise c
    a.sweep = if c.whole then (if clockwise then -fullTurn else fullTurn)
      else sweepBetween clockwise a.startAngle (a.endAngle stop) := by
  intro a
  rw [endAngle_onCircle]
  rfl

theorem inSense_fullTurn (clockwise : Bool) :
    InSense clockwise (if clockwise then -fullTurn else fullTurn) := by
  cases clockwise with
  | true => exact (by decide +kernel : -fullTurn ≤ -fullTurn ∧ -fullTurn < 0)
  | false => exact (by decide +kernel : 0 < fullTurn ∧ fullTurn ≤ fullTurn)

/-- Whole circles keep their sense, and so do all arcs whose angles do not jump. -/
theorem onCircle_sense
    (hc : circle tolerance plane (plane.project start) (plane.project stop) clockwise offsets radius = .ok c)
    (hstop : stop.isFinite = true) (hu : (onCircle plane start stop clockwise c).Usable) :
    let a := onCircle plane start stop clockwise c
    (a.Sensed clockwise ↔
        Closes plane start stop offsets ∨ ¬ Jumps clockwise a.startAngle (a.endAngle stop)) ∧
      (¬ a.Sensed clockwise →
        (a.sweep == 0) = true ∧ AtCut clockwise a.startAngle (a.endAngle stop)) := by
  intro a
  obtain ⟨hstart, hcf, hcs⟩ := hu.isFinite_start hc
  rw [Position.isFinite_iff] at hstart hstop
  have hangle : ∀ p : Position, (∀ axis, (p.get axis).isFinite = true) →
      IsAngle (direction (p.get plane.second - c.center.second) (p.get plane.first - c.center.first)) :=
    fun p hp => direction_isAngle (isNaN_sub (isNaN_of_isFinite (hp _)) hcs)
      (isNaN_sub (isNaN_of_isFinite (hp _)) hcf)
  have hs : IsAngle a.startAngle := hangle start hstart
  have he : IsAngle (a.endAngle stop) := by
    rw [endAngle_onCircle]
    exact hangle stop hstop
  rw [sensed_iff hu.sweep, ← circle_whole hc, sweep_onCircle]
  cases c.whole with
  | true =>
    rw [if_pos rfl]
    have hin := inSense_fullTurn clockwise
    exact ⟨iff_of_true hin (.inl rfl), fun hn => absurd hin hn⟩
  | false =>
    rw [if_neg Bool.false_ne_true]
    obtain ⟨hiff, hzero⟩ := sweepBetween_inSense_iff clockwise hs he
    refine ⟨by rw [hiff]; simp, fun hn => ?_⟩
    rw [hiff, Classical.not_not] at hn
    exact ⟨hzero hn, hn.atCut hs he⟩

end Arc

/-! ## Commands -/

theorem exists_of_map_ok {ε α β : Type} {x : Except ε α} {f : α → β} {b : β} (h : x.map f = .ok b) :
    ∃ a, x = .ok a ∧ f a = b := by
  cases x with
  | error e => cases h
  | ok a =>
    cases h
    exact ⟨a, rfl, rfl⟩

namespace Machine

variable {setup : Setup} {m m' : Machine} {motion : Option Motion} {clockwise : Bool} {target : AxisWords}
  {center : CenterOffsets} {radius : Option Float}

/-- An arc command that is carried out moves along the arc on its circle. -/
theorem exists_circle_of_apply
    (h : m.apply setup (.arcMove clockwise target center radius) = .ok (m', motion)) :
    ∃ stop c, m.destination setup target = .ok stop ∧
      Arc.circle setup.arcTolerance m.plane (m.plane.project m.position) (m.plane.project stop) clockwise
        center radius = .ok c ∧
      motion = (m.moveTo (arcKind clockwise) stop
        (some (Arc.onCircle m.plane m.position stop clockwise c))).2 := by
  obtain ⟨stop, hstop, h⟩ := exists_of_bind_ok h
  obtain ⟨a, ha, h⟩ := exists_of_bind_ok h
  cases h
  rw [Arc.resolve_eq] at ha
  split at ha
  · cases ha
  · obtain ⟨c, hc, rfl⟩ := exists_of_map_ok ha
    exact ⟨stop, c, hstop, hc, rfl⟩

theorem usable_iff_of_apply {r : Motion} {a : Arc} (hm : m.position.isFinite = true)
    (h : m.apply setup (.arcMove clockwise target center radius) = .ok (m', some r)) (ha : r.arc = some a) :
    a.Usable ↔ a.radius.isFinite = true := by
  obtain ⟨stop, hstop, h⟩ := exists_of_bind_ok h
  obtain ⟨arc, harc, h⟩ := exists_of_bind_ok h
  cases h
  cases ha
  exact Arc.resolve_usable_iff hm (AxisWords.resolveOver_isFinite hm hstop) harc

/-- **The sense of an arc.** An arc command that is carried out makes an arc. If the arc is finite, it runs in
the sense of the command and sweeps at most a full turn, unless the angles of its ends jump. Such ends are
next to the half turn as seen from the center, on opposite sides of it, and their arc has no sweep. -/
theorem apply_arc_sense
    (h : m.apply setup (.arcMove clockwise target center radius) = .ok (m', motion)) :
    ∃ r a, motion = some r ∧ r.arc = some a ∧ (a.Usable →
      (a.Sensed clockwise ↔ Arc.Closes a.plane r.start r.stop center ∨
        ¬ Arc.Jumps clockwise a.startAngle (a.endAngle r.stop)) ∧
      (¬ a.Sensed clockwise →
        (a.sweep == 0) = true ∧ Arc.AtCut clockwise a.startAngle (a.endAngle r.stop))) := by
  obtain ⟨stop, c, hstop, hc, rfl⟩ := exists_circle_of_apply h
  refine ⟨_, _, rfl, rfl, fun hu => ?_⟩
  have hfin := AxisWords.resolveOver_isFinite (hu.isFinite_start hc).1 hstop
  exact Arc.onCircle_sense hc hfin hu

/-- A whole circle around a point. -/
theorem whole_circle_sense :
    let m := Machine.ofSetup {}
    let command : Action := .arcMove true .empty { i := some 5 } none
    ∃ m' r a, m.apply {} command = .ok (m', some r) ∧ r.arc = some a ∧ a.Usable ∧ a.Sensed true := by
  intro m command
  have hchecked : (m.apply {} command).toOption.any (fun done => done.2.any fun r => r.arc.any fun a =>
      a.radius.isFinite && decide (Arc.Closes a.plane r.start r.stop { i := some 5 })) = true := by
    decide +kernel
  cases h : m.apply {} command with
  | error cause =>
    rw [h] at hchecked
    cases hchecked
  | ok done =>
    obtain ⟨m', motion⟩ := done
    obtain ⟨r, a, rfl, ha, hsense⟩ := apply_arc_sense h
    rw [h] at hchecked
    simp only [Except.toOption, Option.any_some, ha, Bool.and_eq_true, decide_eq_true_eq] at hchecked
    have hm : m.position.isFinite = true := Position.isFinite_origin
    have hu : a.Usable := (usable_iff_of_apply hm h ha).mpr hchecked.1
    exact ⟨m', r, a, rfl, ha, hu, (hsense hu).1.mpr (.inl hchecked.2)⟩

/-- A machine that stands just below the first axis. -/
def belowAxis : Machine := { ofSetup {} with position := ⟨0, -1e-7, 0, 0, 0, 0⟩ }

/-- Back onto the axis, around a center far along it: both ends are seen at the half turn, the start from
below and the end from above, and the arc is not clockwise. -/
theorem shallow_arc_loses_sense :
    let command : Action :=
      .arcMove true ⟨some 0, some 0, none, none, none, none⟩ { i := some 1e9, j := some 1e-7 } none
    ∃ m' r a, belowAxis.apply {} command = .ok (m', some r) ∧ r.arc = some a ∧ a.Usable ∧
      (a.startAngle = -halfTurn → a.endAngle r.stop = halfTurn →
        a.isClockwise = false ∧ ¬ a.Sensed true) := by
  intro command
  have hchecked : (belowAxis.apply {} command).toOption.any (fun done => done.2.any fun r =>
      r.arc.any fun a => a.radius.isFinite &&
        !decide (Arc.Closes .xy r.start r.stop { i := some 1e9, j := some 1e-7 })) = true := by
    decide +kernel
  have hjumps : fullTurn ≤ halfTurn - -halfTurn := by decide +kernel
  cases h : belowAxis.apply {} command with
  | error cause =>
    rw [h] at hchecked
    cases hchecked
  | ok done =>
    obtain ⟨m', motion⟩ := done
    obtain ⟨stop, c, hstop, hc, rfl⟩ := exists_circle_of_apply h
    rw [h] at hchecked
    change (_ && _) = true at hchecked
    simp only [Bool.and_eq_true, Bool.not_eq_true', decide_eq_false_iff_not] at hchecked
    have hm : belowAxis.position.isFinite = true := by decide
    have hu := (usable_iff_of_apply hm h rfl).mpr hchecked.1
    refine ⟨m', _, _, rfl, rfl, hu, fun hs he => ?_⟩
    have hfin := AxisWords.resolveOver_isFinite hm hstop
    obtain ⟨hiff, hlost⟩ := Arc.onCircle_sense hc hfin hu
    dsimp only at hs he
    rw [hs, he] at hiff
    have hn : ¬ (Arc.onCircle belowAxis.plane belowAxis.position stop true c).Sensed true := by
      rw [hiff]
      rintro (hcloses | hnot)
      · exact hchecked.2 hcloses
      · exact hnot hjumps
    refine ⟨decide_eq_false fun hneg => ?_, hn⟩
    have hzero := (beq_iff_grains hu.sweep isFinite_zero).mp (hlost hn).1
    rw [lt_iff_grains hu.sweep isFinite_zero] at hneg
    omega

end Machine

end Toolpath
