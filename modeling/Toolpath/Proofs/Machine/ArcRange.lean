import Toolpath.Proofs.Machine.Effect
import Toolpath.Proofs.Number.Finite

/-!
# Which arcs can be used

The end point of an arc is finite, but the center and radius that `Simulator.resolve_arc` finds are
sums that may overflow, and a comparison with what is no number refuses nothing. All parts of
an arc are finite exactly if its radius is: the center lies at a finite distance from the start then,
and angles are bounded in any case.

* `Position.isFinite_iff`: finite positions, axis by axis.
* `isFinite_clamp`, `isFinite_direction`, `Arc.isFinite_sweepBetween`: bounded numbers.
* `Arc.circle_ok`: both forms of an arc measure the radius from the start, and which circles are whole.
* `Arc.Usable`, `Arc.resolve_usable_iff`: what can be used.
-/

namespace Toolpath

open Number

/-! ## Positions -/

theorem Position.isFinite_iff {p : Position} :
    p.isFinite = true ↔ ∀ axis, (p.get axis).isFinite = true := by
  unfold isFinite
  rw [List.all_eq_true]
  constructor
  · intro h axis
    refine h _ ?_
    cases axis <;> simp [PerAxis.get, PerAxis.toList]
  · intro h v hv
    simp only [PerAxis.toList, List.mem_cons, List.not_mem_nil, or_false] at hv
    rcases hv with rfl | rfl | rfl | rfl | rfl | rfl
    · exact h .x
    · exact h .y
    · exact h .z
    · exact h .a
    · exact h .b
    · exact h .c

theorem Position.isFinite_origin : Position.origin.isFinite = true := by
  decide

/-! ## Bounded numbers -/

theorem isFinite_clamp {low high x : Float} (hlow : low.isFinite = true) (hhigh : high.isFinite = true)
    (hx : x.isNaN = false) : (clamp low high x).isFinite = true := by
  unfold clamp
  dsimp only
  split
  · split
    · exact hhigh
    · exact hlow
  · rename_i hl
    split
    · exact hhigh
    · rename_i hh
      exact isFinite_of_between hlow hhigh hx hl hh

theorem isFinite_direction {second first : Float} (hs : second.isNaN = false)
    (hf : first.isNaN = false) : (direction second first).isFinite = true := by
  unfold direction
  dsimp only
  rw [hs, hf]
  cases hn : (Float.atan2 second first).isNaN with
  | true =>
    change (0 : Float).isFinite = true
    decide
  | false => exact isFinite_clamp (by decide) (by decide) hn

theorem Arc.isFinite_sweepBetween (clockwise : Bool) {startAngle endAngle : Float}
    (hs : startAngle.isFinite = true) (he : endAngle.isFinite = true) :
    (sweepBetween clockwise startAngle endAngle).isFinite = true := by
  have hfull : fullTurn.isFinite = true := by decide
  have hturn : (endAngle - startAngle).isNaN = false := isNaN_sub (isNaN_of_isFinite he) hs
  refine isFinite_clamp (by decide) hfull ?_
  split
  · split
    · exact isNaN_sub hturn hfull
    · exact hturn
  · split
    · exact isNaN_add hturn hfull
    · exact hturn

/-! ## Circles -/

section Circle

variable {tolerance : Float} {plane : Plane} {s e : PlanarPoint} {clockwise : Bool}
  {offsets : CenterOffsets} {radius : Option Float} {c : Circle}

/-- The radius of a circle is the distance of its center from the start, in either form. Only offsets, with
an end at the start, ask for a whole circle. -/
theorem Arc.circle_ok (h : circle tolerance plane s e clockwise offsets radius = .ok c) :
    c.radius = hypot (s.first - c.center.first) (s.second - c.center.second) ∧
      (c.whole = true ↔ offsets.isEmpty = false ∧ (e.first - s.first).abs < epsilon ∧
        (e.second - s.second).abs < epsilon) := by
  unfold circle at h
  split at h
  · rename_i ho
    have hgiven : offsets.isEmpty = false := by simpa using ho
    unfold Circle.ofOffsets at h
    dsimp only at h
    split at h
    · cases h
    · split at h
      · cases h
      · cases h
        refine ⟨rfl, ?_⟩
        simp only [hgiven, true_and, Bool.and_eq_true, decide_eq_true_eq]
  · rename_i ho
    have hnone : ¬ offsets.isEmpty = false := by simpa using ho
    split at h
    · unfold Circle.ofRadius at h
      dsimp only at h
      split at h
      · cases h
      · split at h
        · cases h
        · split at h
          · cases h
          · cases h
            exact ⟨rfl, iff_of_false Bool.false_ne_true fun hw => hnone hw.1⟩
    · cases h

end Circle

/-! ## Arcs -/

theorem Plane.isFinite_place {plane : Plane} {p : Position} {at_ : PlanarPoint}
    (hp : p.isFinite = true) (hf : at_.first.isFinite = true) (hs : at_.second.isFinite = true) :
    (plane.place p at_).isFinite = true := by
  rw [Position.isFinite_iff] at hp ⊢
  intro axis
  unfold place
  by_cases h₂ : axis = plane.second
  · rw [h₂, PerAxis.get_set_self]
    exact hs
  · rw [PerAxis.get_set_ne _ _ h₂]
    by_cases h₁ : axis = plane.first
    · rw [h₁, PerAxis.get_set_self]
      exact hf
    · rw [PerAxis.get_set_ne _ _ h₁]
      exact hp axis

namespace Arc

/-- All parts of an arc are finite. -/
structure Usable (a : Arc) : Prop where
  center : a.center.isFinite = true
  radius : a.radius.isFinite = true
  startAngle : a.startAngle.isFinite = true
  sweep : a.sweep.isFinite = true

variable {tolerance : Float} {plane : Plane} {start stop : Position} {clockwise : Bool}
  {offsets : CenterOffsets} {radius : Option Float} {a : Arc}

/-- **Usable arcs.** An arc between finite positions is usable exactly if its radius is finite. -/
theorem resolve_usable_iff (hstart : start.isFinite = true) (hstop : stop.isFinite = true)
    (h : resolve tolerance plane start stop clockwise offsets radius = .ok a) :
    a.Usable ↔ a.radius.isFinite = true := by
  refine ⟨Usable.radius, fun hr => ?_⟩
  rw [Position.isFinite_iff] at hstop
  unfold resolve at h
  split at h
  · cases h
  · obtain ⟨c, hc, h⟩ := exists_of_bind_ok h
    cases h
    -- the center is a finite distance away from the start, so it is finite
    obtain ⟨hdf, hds⟩ := isFinite_of_hypot ((circle_ok hc).1 ▸ hr)
    have hcf := (isFinite_of_sub hdf).2
    have hcs := (isFinite_of_sub hds).2
    have hangle : ∀ p : PlanarPoint, p.first.isFinite = true → p.second.isFinite = true →
        (direction (p.second - c.center.second) (p.first - c.center.first)).isFinite = true :=
      fun p hf hs => isFinite_direction (isNaN_sub (isNaN_of_isFinite hs) hcs)
        (isNaN_sub (isNaN_of_isFinite hf) hcf)
    have hs := hangle (plane.project start) (isFinite_of_sub hdf).1 (isFinite_of_sub hds).1
    have he := hangle (plane.project stop) (hstop _) (hstop _)
    refine ⟨Plane.isFinite_place hstart hcf hcs, hr, hs, ?_⟩
    dsimp only
    split
    · cases clockwise <;> decide
    · exact isFinite_sweepBetween clockwise hs he

end Arc

end Toolpath
