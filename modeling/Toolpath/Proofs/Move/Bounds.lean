import Toolpath.Move
import Toolpath.Proofs.Number.Level

/-!
# The box around a course

`MoveList.bounds`. The box of a course is the least one around the ends of its moves and the outermost
points of its circles. So it does not depend on the order of the moves, and the box of two courses in a
row is the join of their boxes.

* `Side`, `Side.Outermost`: the two sides of a box are treated alike; what is outermost among doubles.
* `Side.outermost_foldl`, `Side.Outermost.append`: picking finds it, one by one or for whole lists.
* `Arc.tips`, `Side.reaches_outline`: the points that the box goes around reach as far as the outermost points do.
* `Bounds.Hull`, `boundsOf_hull`: the least box around points, and that of a course.
-/

namespace Toolpath

open Number

/-! ## Both sides of a box -/

/-- The lower or the upper side of a box. -/
inductive Side where
  | low | high

namespace Side

/-- The one of two doubles that is further out, and the other one if only one is a number. -/
def pick : Side → Float → Float → Float
  | .low => lesser
  | .high => greater

/-- The level of a number, counted from its side inwards. -/
def rank : Side → Float → Int
  | .low, x => level x
  | .high, x => -level x

/-- The ranks of the numbers among doubles. -/
def ranks (side : Side) (xs : List Float) : Set Int :=
  {r | ∃ x ∈ xs, x.isNaN = false ∧ side.rank x = r}

/-- A number as far out as any number among doubles. -/
structure Outermost (side : Side) (xs : List Float) (x : Float) : Prop where
  number : x.isNaN = false
  isLeast : IsLeast (side.ranks xs) (side.rank x)

section Picking

variable {side : Side} {x y : Float} {xs ys : List Float}

theorem pick_of_lt (hx : x.isNaN = false) (hy : y.isNaN = false) (h : side.rank y < side.rank x) :
    side.pick x y = y := by
  cases side with
  | low =>
    have hlt : y < x := (lt_iff_level hy hx).mpr h
    rw [pick, lesser, if_neg (Bool.eq_false_iff.mp hx), if_pos hlt]
  | high =>
    have hlt : x < y := (lt_iff_level hx hy).mpr (Int.neg_lt_neg_iff.mp h)
    rw [pick, greater, if_neg (Bool.eq_false_iff.mp hx), if_pos hlt]

theorem pick_of_not_lt (hx : x.isNaN = false) (h : y.isNaN = false → side.rank x ≤ side.rank y) :
    side.pick x y = x := by
  cases side with
  | low =>
    have hlt : ¬ y < x := fun hlt => by
      obtain ⟨hy, -⟩ := isNaN_of_lt hlt
      exact absurd ((lt_iff_level hy hx).mp hlt) (Int.not_lt.mpr (h hy))
    rw [pick, lesser, if_neg (Bool.eq_false_iff.mp hx), if_neg hlt]
  | high =>
    have hlt : ¬ x < y := fun hlt => by
      obtain ⟨-, hy⟩ := isNaN_of_lt hlt
      exact absurd ((lt_iff_level hx hy).mp hlt) (Int.not_lt.mpr (Int.neg_le_neg_iff.mp (h hy)))
    rw [pick, greater, if_neg (Bool.eq_false_iff.mp hx), if_neg hlt]

theorem rank_pick (side : Side) (hx : x.isNaN = false) (hy : y.isNaN = false) :
    (side.pick x y).isNaN = false ∧ side.rank (side.pick x y) = min (side.rank x) (side.rank y) := by
  rcases Int.lt_or_le (side.rank y) (side.rank x) with h | h
  · rw [pick_of_lt hx hy h, min_eq_right (Int.le_of_lt h)]
    exact ⟨hy, rfl⟩
  · rw [pick_of_not_lt hx fun _ => h, min_eq_left h]
    exact ⟨hx, rfl⟩

theorem ranks_append (side : Side) (xs ys : List Float) :
    side.ranks (xs ++ ys) = side.ranks xs ∪ side.ranks ys := by
  ext r
  simp only [ranks, List.mem_append, Set.mem_union, Set.mem_ofPred_eq, or_and_right, exists_or]

/-- Of two numbers that are outermost in their lists, the one further out is so in both lists. -/
theorem Outermost.append (hx : side.Outermost xs x) (hy : side.Outermost ys y) :
    side.Outermost (xs ++ ys) (side.pick x y) := by
  obtain ⟨hnumber, hrank⟩ := side.rank_pick hx.number hy.number
  refine ⟨hnumber, ?_⟩
  rw [ranks_append, hrank]
  exact hx.isLeast.union hy.isLeast

theorem outermost_singleton (hx : x.isNaN = false) : side.Outermost [x] x := by
  refine ⟨hx, ⟨x, List.mem_singleton_self x, hx, rfl⟩, ?_⟩
  rintro r ⟨y, hy, -, rfl⟩
  rw [List.mem_singleton.mp hy]

theorem Outermost.concat (hx : side.Outermost xs x) (y : Float) :
    side.Outermost (xs ++ [y]) (side.pick x y) := by
  by_cases hy : y.isNaN = false
  · exact hx.append (outermost_singleton hy)
  · -- what is no number is neither picked nor counted
    have hnone : side.ranks [y] = ∅ := by
      refine Set.eq_empty_of_forall_notMem ?_
      rintro r ⟨z, hz, hn, -⟩
      exact hy (List.mem_singleton.mp hz ▸ hn)
    rw [pick_of_not_lt hx.number fun h => absurd h hy]
    refine ⟨hx.number, ?_⟩
    rw [ranks_append, hnone, Set.union_empty]
    exact hx.isLeast

/-- Picking one by one finds what is outermost. -/
theorem outermost_foldl (side : Side) (hx : x.isNaN = false) (ys : List Float) :
    side.Outermost (x :: ys) (ys.foldl side.pick x) := by
  induction ys using List.reverseRecOn with
  | nil => exact outermost_singleton hx
  | append_singleton ys y ih =>
    rw [List.foldl_append]
    exact ih.concat y

theorem beq_iff_rank (hx : x.isNaN = false) (hy : y.isNaN = false) :
    (x == y) = true ↔ side.rank x = side.rank y := by
  rw [beq_iff_level hx hy]
  cases side with
  | low => rfl
  | high => exact Int.neg_inj.symm

theorem Outermost.congr (hx : side.Outermost xs x) (h : ∀ y, y ∈ xs ↔ y ∈ ys) : side.Outermost ys x := by
  have hranks : side.ranks xs = side.ranks ys := by simp only [ranks, h]
  exact ⟨hx.number, hranks ▸ hx.isLeast⟩

/-- There is one outermost number only, zeros of both signs being one. -/
theorem Outermost.beq (hx : side.Outermost xs x) (hy : side.Outermost xs y) : (x == y) = true :=
  (beq_iff_rank hx.number hy.number).mpr (hx.isLeast.unique hy.isLeast)

theorem outermost_iff : side.Outermost xs x ↔
    (∀ y ∈ xs, y.isNaN = false → side.rank x ≤ side.rank y) ∧ ∃ y ∈ xs, (y == x) = true := by
  constructor
  · rintro ⟨hx, ⟨y, hy, hn, hrank⟩, hle⟩
    exact ⟨fun z hz hn => hle ⟨z, hz, hn, rfl⟩, y, hy, (beq_iff_rank hn hx).mpr hrank⟩
  · rintro ⟨hle, y, hy, hbeq⟩
    obtain ⟨hn, hx⟩ := isNaN_of_beq hbeq
    refine ⟨hx, ⟨y, hy, hn, (beq_iff_rank hn hx).mp hbeq⟩, ?_⟩
    rintro r ⟨z, hz, hn, rfl⟩
    exact hle z hz hn

end Picking

/-! ## Reach -/

/-- Some doubles among others that reach as far out as all of them, as far as both are numbers. -/
structure Reaches (side : Side) (xs ys : List Float) : Prop where
  sub : side.ranks xs ⊆ side.ranks ys
  reach : ∀ r ∈ side.ranks ys, ∃ s ∈ side.ranks xs, s ≤ r

section Reach

variable {side : Side} {x : Float} {xs ys xs' ys' : List Float}

theorem Outermost.of_reaches (hx : side.Outermost xs x) (h : side.Reaches xs ys) : side.Outermost ys x := by
  refine ⟨hx.number, h.sub hx.isLeast.1, fun r hr => ?_⟩
  obtain ⟨s, hs, hle⟩ := h.reach r hr
  exact Int.le_trans (hx.isLeast.2 hs) hle

theorem Reaches.refl (side : Side) (xs : List Float) : side.Reaches xs xs :=
  ⟨fun _ => id, fun r hr => ⟨r, hr, Int.le_refl r⟩⟩

theorem Reaches.append (h : side.Reaches xs ys) (h' : side.Reaches xs' ys') :
    side.Reaches (xs ++ xs') (ys ++ ys') := by
  constructor
  · rw [ranks_append, ranks_append]
    exact Set.union_subset_union h.sub h'.sub
  · intro r hr
    rw [ranks_append] at hr ⊢
    rcases hr with hr | hr
    · obtain ⟨s, hs, hle⟩ := h.reach r hr
      exact ⟨s, .inl hs, hle⟩
    · obtain ⟨s, hs, hle⟩ := h'.reach r hr
      exact ⟨s, .inr hs, hle⟩

theorem Reaches.flatMap {α : Type} {f g : α → List Float} {items : List α}
    (h : ∀ a ∈ items, side.Reaches (f a) (g a)) : side.Reaches (items.flatMap f) (items.flatMap g) := by
  induction items with
  | nil => exact .refl side []
  | cons a items ih =>
    rw [List.flatMap_cons, List.flatMap_cons]
    exact (h a List.mem_cons_self).append (ih fun b hb => h b (List.mem_cons_of_mem a hb))

theorem rank_add_zero_mul {c r : Float} (hc : c.isNaN = false) (hr : r.isFinite = true) :
    side.rank (c + 0 * r) = side.rank c := by
  have hlevel := (level_add_zero_mul hc hr).2
  cases side with
  | low => exact hlevel
  | high => exact congrArg Int.neg hlevel

theorem exists_further {c r : Float} (side : Side) (hc : c.isNaN = false) (hr : r.isNaN = false)
    (hf : r.isFinite = false) : ∃ z ∈ [c + r, c - r], z.isNaN = false ∧ side.rank z ≤ side.rank c := by
  cases side with
  | low =>
    obtain ⟨z, hz, hn, hle⟩ := shifts_around hc hr hf .negative
    exact ⟨z, hz, hn, Int.neg_le_neg_iff.mp hle⟩
  | high =>
    obtain ⟨z, hz, hn, hle⟩ := shifts_around hc hr hf .positive
    exact ⟨z, hz, hn, Int.neg_le_neg hle⟩

/-- A number and its shifts to both sides reach no further than they do with a multiple of zero added to the number:
if that sum is no number, then the shift is infinite and one of the shifts is further out. -/
theorem reaches_shifts {c r : Float} (hc : c.isNaN = false) (hr : r.isNaN = false)
    (hxs : ∀ x, x ∈ xs ↔ x ∈ [c + r, c - r] ∨ x = c + 0 * r)
    (hys : ∀ y, y ∈ ys ↔ y ∈ [c + r, c - r] ∨ y = c) : side.Reaches xs ys := by
  constructor
  · rintro _ ⟨x, hx, hn, rfl⟩
    rcases (hxs x).mp hx with h | rfl
    · exact ⟨x, (hys x).mpr (.inl h), hn, rfl⟩
    · have hf : r.isFinite = true := by
        by_contra hf
        exact absurd (isNaN_add_zero_mul c (Bool.eq_false_iff.mpr hf)) (Bool.eq_false_iff.mp hn)
      exact ⟨c, (hys c).mpr (.inr rfl), hc, (rank_add_zero_mul hc hf).symm⟩
  · rintro _ ⟨y, hy, hn, rfl⟩
    rcases (hys y).mp hy with h | rfl
    · exact ⟨_, ⟨y, (hxs y).mpr (.inl h), hn, rfl⟩, Int.le_refl _⟩
    · by_cases hf : r.isFinite = true
      · obtain ⟨hn', -⟩ := level_add_zero_mul hc hf
        exact ⟨_, ⟨y + 0 * r, (hxs _).mpr (.inr rfl), hn', rfl⟩, Int.le_of_eq (rank_add_zero_mul hc hf)⟩
      · obtain ⟨z, hz, hn', hle⟩ := exists_further side hc hr (Bool.eq_false_iff.mpr hf)
        exact ⟨_, ⟨z, (hxs z).mpr (.inl hz), hn', rfl⟩, hle⟩

end Reach

end Side

/-! ## Moves -/

/-- The axes along which a box extends. -/
def Axis.linear : List Axis := [.x, .y, .z]

/-- Whether a point is given by numbers. -/
def Position.IsNumber (p : Position) : Prop := ∀ axis ∈ Axis.linear, (p.get axis).isNaN = false

instance (p : Position) : Decidable p.IsNumber :=
  inferInstanceAs (Decidable (∀ axis ∈ Axis.linear, (p.get axis).isNaN = false))

/-- The values of points on an axis. -/
def Position.along (axis : Axis) (points : List Position) : List Float := points.map fun p => p.get axis

namespace Arc

/-- The center, shifted by the radius to both sides along an axis. -/
def shifts (a : Arc) (axis : Axis) : List Position :=
  [a.center.set axis (a.center.get axis + a.radius), a.center.set axis (a.center.get axis - a.radius)]

/-- The center, shifted by the radius to both sides along each axis of the plane. -/
def tips (a : Arc) : List Position := a.shifts a.plane.first ++ a.shifts a.plane.second

end Arc

namespace Move

/-- The points that the path of a move is bounded by: its ends, and the tips of its circle. -/
def landmarks (m : Move) : List Position := m.start :: m.stop :: (m.arc.map Arc.tips).getD []

/-- Whether a move is given by numbers. -/
structure IsNumber (m : Move) : Prop where
  start : m.start.IsNumber
  stop : m.stop.IsNumber
  center : ∀ a, m.arc = some a → a.center.IsNumber
  radius : ∀ a, m.arc = some a → a.radius.isNaN = false

end Move

theorem Plane.first_ne_second (plane : Plane) : plane.first ≠ plane.second := by
  cases plane <;> decide

namespace Side

variable {side : Side} {axis : Axis}

/-- The points around the circle of an arc reach as far as its tips. -/
theorem reaches_extremes {a : Arc} (hc : a.center.IsNumber) (hr : a.radius.isNaN = false)
    (haxis : axis ∈ Axis.linear) :
    side.Reaches (Position.along axis a.extremes) (Position.along axis a.tips) := by
  have hne := a.plane.first_ne_second
  by_cases hfirst : axis = a.plane.first
  · subst hfirst
    refine reaches_shifts (hc _ haxis) hr (fun x => ?_) (fun x => ?_)
    · simp [Position.along, Arc.extremes, Plane.place, add_one_mul, add_neg_one_mul, hne, or_assoc]
    · simp [Position.along, Arc.tips, Arc.shifts, hne, or_assoc]
  · by_cases hsecond : axis = a.plane.second
    · subst hsecond
      refine reaches_shifts (hc _ haxis) hr (fun x => ?_) (fun x => ?_)
      · simp [Position.along, Arc.extremes, Plane.place, add_one_mul, add_neg_one_mul, or_comm]
      · simp [Position.along, Arc.tips, Arc.shifts, hne.symm, or_comm]
    · have hsame : Position.along axis a.extremes = Position.along axis a.tips := by
        simp [Position.along, Arc.extremes, Arc.tips, Arc.shifts, Plane.place, hfirst, hsecond]
      exact hsame ▸ .refl side _

theorem reaches_outline {m : Move} (hm : m.IsNumber) (haxis : axis ∈ Axis.linear) :
    side.Reaches (Position.along axis m.outline) (Position.along axis m.landmarks) := by
  have hends := Reaches.refl side (Position.along axis [m.start, m.stop])
  cases harc : m.arc with
  | none =>
    rw [Move.outline, Move.landmarks, harc]
    exact hends
  | some a =>
    rw [Move.outline, Move.landmarks, harc]
    exact hends.append (reaches_extremes (hm.center a harc) (hm.radius a harc) haxis)

end Side

/-! ## Boxes -/

namespace Bounds

/-- The corner of a box on one side. -/
def corner (b : Bounds) : Side → Position
  | .low => b.min
  | .high => b.max

/-- The box around two boxes. -/
def join (b c : Bounds) : Bounds where
  min := .linear (lesser b.min.x c.min.x) (lesser b.min.y c.min.y) (lesser b.min.z c.min.z)
  max := .linear (greater b.max.x c.max.x) (greater b.max.y c.max.y) (greater b.max.z c.max.z)

/-- The least box around points: it contains each of them, as far as it is given by numbers, and each face has one
of them on it. -/
structure Hull (points : List Position) (b : Bounds) : Prop where
  rotary : ∀ axis ∉ Axis.linear, b.min.get axis = 0 ∧ b.max.get axis = 0
  contains : ∀ p ∈ points, ∀ axis ∈ Axis.linear, (p.get axis).isNaN = false →
    b.min.get axis ≤ p.get axis ∧ p.get axis ≤ b.max.get axis
  attained : ∀ axis ∈ Axis.linear, (∃ p ∈ points, (p.get axis == b.min.get axis) = true) ∧
    ∃ p ∈ points, (p.get axis == b.max.get axis) = true

variable {side : Side} {axis : Axis} {b c : Bounds} {points : List Position}

theorem get_corner_around (p : Position) (haxis : axis ∈ Axis.linear) :
    ((around p).corner side).get axis = p.get axis := by
  cases side <;> fin_cases haxis <;> rfl

theorem get_corner_insert (b : Bounds) (p : Position) (haxis : axis ∈ Axis.linear) :
    ((b.insert p).corner side).get axis = side.pick ((b.corner side).get axis) (p.get axis) := by
  cases side <;> fin_cases haxis <;> rfl

theorem get_corner_join (b c : Bounds) (haxis : axis ∈ Axis.linear) :
    ((b.join c).corner side).get axis = side.pick ((b.corner side).get axis) ((c.corner side).get axis) := by
  cases side <;> fin_cases haxis <;> rfl

theorem get_corner_foldl (b : Bounds) (points : List Position) (haxis : axis ∈ Axis.linear) :
    ((points.foldl insert b).corner side).get axis =
      (Position.along axis points).foldl side.pick ((b.corner side).get axis) := by
  induction points generalizing b with
  | nil => rfl
  | cons p points ih =>
    rw [List.foldl_cons, ih, get_corner_insert b p haxis]
    rfl

/-- Whether the rotary axes are at zero. -/
def IsFlat (b : Bounds) : Prop := ∀ side, ∀ axis ∉ Axis.linear, (b.corner side).get axis = 0

theorem isFlat_linear {x y z x' y' z' : Float} : IsFlat ⟨.linear x y z, .linear x' y' z'⟩ := by
  intro side axis haxis
  cases side <;> cases axis <;> first | rfl | exact absurd (by decide) haxis

theorem isFlat_foldl (hb : b.IsFlat) (points : List Position) : (points.foldl insert b).IsFlat := by
  induction points generalizing b with
  | nil => exact hb
  | cons p points ih => exact ih (b := b.insert p) isFlat_linear

theorem outermost_along {x : Float} : Side.Outermost side (Position.along axis points) x ↔
    (∀ p ∈ points, (p.get axis).isNaN = false → side.rank x ≤ side.rank (p.get axis)) ∧
      ∃ p ∈ points, (p.get axis == x) = true := by
  simp only [Side.outermost_iff, Position.along, List.mem_map, forall_exists_index, and_imp,
    forall_apply_eq_imp_iff₂, exists_exists_and_eq_and]

/-- The least box has the outermost values of the points on each side. -/
theorem hull_iff : Hull points b ↔ b.IsFlat ∧ ∀ side, ∀ axis ∈ Axis.linear,
    Side.Outermost side (Position.along axis points) ((b.corner side).get axis) := by
  constructor
  · intro h
    refine ⟨fun side axis haxis => ?_, fun side axis haxis => outermost_along.mpr ?_⟩
    · cases side with
      | low => exact (h.rotary axis haxis).1
      | high => exact (h.rotary axis haxis).2
    · obtain ⟨⟨p, hp, hlow⟩, q, hq, hhigh⟩ := h.attained axis haxis
      cases side with
      | low =>
        refine ⟨fun o ho hn => ?_, p, hp, hlow⟩
        exact (le_iff_level (isNaN_of_beq hlow).2 hn).mp (h.contains o ho axis haxis hn).1
      | high =>
        refine ⟨fun o ho hn => ?_, q, hq, hhigh⟩
        exact Int.neg_le_neg ((le_iff_level hn (isNaN_of_beq hhigh).2).mp (h.contains o ho axis haxis hn).2)
  · rintro ⟨hflat, h⟩
    simp only [outermost_along] at h
    refine ⟨fun axis haxis => ⟨hflat .low axis haxis, hflat .high axis haxis⟩, fun p hp axis haxis hn => ?_,
      fun axis haxis => ⟨(h .low axis haxis).2, (h .high axis haxis).2⟩⟩
    obtain ⟨hlow, q, -, hq⟩ := h .low axis haxis
    obtain ⟨hhigh, r, -, hr⟩ := h .high axis haxis
    exact ⟨(le_iff_level (isNaN_of_beq hq).2 hn).mpr (hlow p hp hn),
      (le_iff_level hn (isNaN_of_beq hr).2).mpr (Int.neg_le_neg_iff.mp (hhigh p hp hn))⟩

/-- Boxes that agree on the linear axes are equal. -/
theorem beq_of_corner (hb : b.IsFlat) (hc : c.IsFlat)
    (h : ∀ side, ∀ axis ∈ Axis.linear, ((b.corner side).get axis == (c.corner side).get axis) = true) :
    (b == c) = true := by
  have hall : ∀ side axis, ((b.corner side).get axis == (c.corner side).get axis) = true := by
    intro side axis
    by_cases haxis : axis ∈ Axis.linear
    · exact h side axis haxis
    · rw [hb side axis haxis, hc side axis haxis]
      decide
  have hcorner : ∀ side, (b.corner side == c.corner side) = true := by
    intro side
    change (_ && (_ && (_ && (_ && (_ && _))))) = true
    simp only [Bool.and_eq_true]
    exact ⟨hall side .x, hall side .y, hall side .z, hall side .a, hall side .b, hall side .c⟩
  exact Bool.and_eq_true_iff.mpr ⟨hcorner .low, hcorner .high⟩

theorem Hull.beq (hb : Hull points b) (hc : Hull points c) : (b == c) = true := by
  rw [hull_iff] at hb hc
  exact beq_of_corner hb.1 hc.1 fun side axis haxis => (hb.2 side axis haxis).beq (hc.2 side axis haxis)

/-- The join of two least boxes is the least box around the points of both. -/
theorem Hull.join {points' : List Position} (hb : Hull points b) (hc : Hull points' c) :
    Hull (points ++ points') (b.join c) := by
  rw [hull_iff] at hb hc ⊢
  refine ⟨isFlat_linear, fun side axis haxis => ?_⟩
  rw [get_corner_join b c haxis, Position.along, List.map_append]
  exact (hb.2 side axis haxis).append (hc.2 side axis haxis)

theorem Hull.congr {points' : List Position} (h : ∀ p, p ∈ points ↔ p ∈ points') (hb : Hull points b) :
    Hull points' b := by
  obtain ⟨hrotary, hcontains, hattained⟩ := hb
  simp only [h] at hcontains hattained
  exact ⟨hrotary, hcontains, hattained⟩

end Bounds

/-! ## The box of a course -/

variable {moves : List Move}

/-- Picking from the first start on finds the outermost values of all points. -/
theorem boundsOf_eq_some (hne : moves ≠ []) (hnum : ∀ m ∈ moves, m.IsNumber) :
    ∃ b, boundsOf moves = some b ∧ Bounds.Hull (moves.flatMap Move.landmarks) b := by
  obtain ⟨first, rest, rfl⟩ := List.exists_cons_of_ne_nil hne
  refine ⟨_, rfl, Bounds.hull_iff.mpr ⟨Bounds.isFlat_foldl Bounds.isFlat_linear _, fun side axis haxis => ?_⟩⟩
  rw [Bounds.get_corner_foldl _ _ haxis, Bounds.get_corner_around _ haxis]
  have hstart := (hnum first List.mem_cons_self).start axis haxis
  have hmem : first.start.get axis ∈ Position.along axis ((first :: rest).flatMap Move.outline) :=
    List.mem_map_of_mem List.mem_cons_self
  have hreach : side.Reaches (Position.along axis ((first :: rest).flatMap Move.outline))
      (Position.along axis ((first :: rest).flatMap Move.landmarks)) := by
    unfold Position.along
    rw [List.map_flatMap, List.map_flatMap]
    exact .flatMap fun m hm => Side.reaches_outline (hnum m hm) haxis
  -- the start that the box grows from is one of the points it goes around
  refine ((side.outermost_foldl hstart _).congr fun y => ?_).of_reaches hreach
  rw [List.mem_cons, or_iff_right_of_imp]
  rintro rfl
  exact hmem

/-- **The box of a course.** Moves that are given by numbers have a box, which is the least one around their ends
and the tips of their circles, and the only one up to the signs of zeros. It does not depend on the order of the
moves, and the box of two courses in a row is the join of their boxes. -/
theorem boundsOf_hull (hne : moves ≠ []) (hnum : ∀ m ∈ moves, m.IsNumber) :
    ∃ b, boundsOf moves = some b ∧ Bounds.Hull (moves.flatMap Move.landmarks) b ∧
      (∀ other, Bounds.Hull (moves.flatMap Move.landmarks) other → (other == b) = true) ∧
      (∀ others, others.Perm moves → ∃ other, boundsOf others = some other ∧ (other == b) = true) ∧
      ∀ front back, front ++ back = moves → front ≠ [] → back ≠ [] →
        ∃ f g, boundsOf front = some f ∧ boundsOf back = some g ∧ (f.join g == b) = true := by
  obtain ⟨b, hb, hull⟩ := boundsOf_eq_some hne hnum
  refine ⟨b, hb, hull, fun other hother => hother.beq hull, fun others hperm => ?_, ?_⟩
  · have hne' : others ≠ [] := fun h => hne (List.Perm.nil_eq (h ▸ hperm)).symm
    obtain ⟨other, hother, hull'⟩ := boundsOf_eq_some hne' fun m hm => hnum m (hperm.mem_iff.mp hm)
    refine ⟨other, hother, (hull'.congr fun p => ?_).beq hull⟩
    exact (hperm.flatMap_right _).mem_iff
  · rintro front back rfl hfront hback
    obtain ⟨f, hf, hullf⟩ := boundsOf_eq_some hfront fun m hm => hnum m (List.mem_append_left back hm)
    obtain ⟨g, hg, hullg⟩ := boundsOf_eq_some hback fun m hm => hnum m (List.mem_append_right front hm)
    refine ⟨f, g, hf, hg, Bounds.Hull.beq ?_ hull⟩
    rw [List.flatMap_append]
    exact hullf.join hullg

/-- A line across a circle, and the whole circle: the box goes around the circle, in either order. -/
theorem boundsOf_hull_circle :
    let west : Position := .linear 0 0 1
    let east : Position := .linear 4 0 1
    let circle : Arc := ⟨.xy, .linear 2 0 1, 2, 0, fullTurn⟩
    let across : Move := ⟨.mint 1 0, 0, 0, ⟨.linear, west, east, none, .ofSetup {}⟩⟩
    let around : Move := ⟨.mint 1 1, 1, 1, ⟨.arcCounterClockwise, east, east, some circle, .ofSetup {}⟩⟩
    ∃ b, boundsOf [across, around] = some b ∧ (b == ⟨.linear 0 (-2) 1, .linear 4 2 1⟩) = true ∧
      ∃ other, boundsOf [around, across] = some other ∧ (other == b) = true := by
  intro west east circle across around
  have hacross : across.IsNumber := ⟨by decide, by decide, nofun, nofun⟩
  have haround : around.IsNumber := by
    refine ⟨by decide, by decide, fun a ha => ?_, fun a ha => ?_⟩ <;> cases ha <;> decide
  have hnum : ∀ m ∈ [across, around], m.IsNumber := by
    simpa using ⟨hacross, haround⟩
  obtain ⟨b, hb, -, -, horder, -⟩ := boundsOf_hull (List.cons_ne_nil _ _) hnum
  refine ⟨b, hb, ?_, horder _ (List.Perm.swap _ _ _)⟩
  have hbox : boundsOf [across, around] = some ⟨.linear 0 (-2) 1, .linear 4 2 1⟩ := by decide +kernel
  cases hb.symm.trans hbox
  decide +kernel

end Toolpath
