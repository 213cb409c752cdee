import Toolpath.Proofs.Number.Rounding

/-!
# The order of all numbers

A double that is a number is finite or one of the two infinities. All of these have a level, and their
order is that of their levels: a finite double has its value, and an infinity the first value that there
is no room for.

* `level`, `lt_iff_level`, `le_iff_level`, `beq_iff_level`: the order of numbers.
* `add_one_mul`, `add_neg_one_mul`: a product with a unit is exact.
* `level_add_zero_mul`, `isNaN_add_zero_mul`: a product with zero changes no sum, unless it is no number.
* `shifts_around`: what is shifted by an infinity to both sides has its old place in between.
-/

namespace Toolpath.Number

open Float.Model (UnpackedFloat Format)

open Float.Model.UnpackedFloat

/-! ## Levels -/

section Levels

variable {u v : UnpackedFloat}

/-- The first value that there is no room for. -/
def beyond : Nat := 2 ^ 52 * 2 ^ 2046

/-- The place of a number among all numbers. -/
def levelOf : UnpackedFloat → Int
  | .infinity s => s.apply beyond
  | u => grainsOf u

/-- What is a number. -/
inductive Numeral : UnpackedFloat → Prop where
  | stored {u : UnpackedFloat} (h : Stored u) : Numeral u
  | infinity (s : Sign) : Numeral (.infinity s)

theorem levelOf_stored (h : Stored u) : levelOf u = grainsOf u := by
  obtain ⟨hc, -⟩ := h
  cases hc <;> rfl

theorem Stored.levelOf_bounds (h : Stored u) : -(beyond : Int) < levelOf u ∧ levelOf u < beyond := by
  have hlt : (grainsOf u).natAbs < beyond := h.natAbs_lt (Nat.le_refl _) (Nat.le_refl _)
  rw [levelOf_stored h]
  omega

theorem neg_beyond_lt : -(beyond : Int) < beyond :=
  have hzero : Stored (.zero .positive) := ⟨.zero _, trivial⟩
  Int.lt_trans hzero.levelOf_bounds.1 hzero.levelOf_bounds.2

theorem Numeral.levelOf_bounds (h : Numeral u) : -(beyond : Int) ≤ levelOf u ∧ levelOf u ≤ beyond := by
  cases h with
  | stored h => exact h.levelOf_bounds.imp Int.le_of_lt Int.le_of_lt
  | infinity s =>
    cases s with
    | negative => exact ⟨Int.le_refl _, Int.le_of_lt neg_beyond_lt⟩
    | positive => exact ⟨Int.le_of_lt neg_beyond_lt, Int.le_refl _⟩

theorem Numeral.isNaN (h : Numeral u) : u.isNaN = false := by
  cases h with
  | stored h => cases h.canonical <;> rfl
  | infinity s => rfl

theorem Numeral.unpack_pack (h : Numeral u) : unpack .binary64 (pack .binary64 u) = u := by
  cases h with
  | stored h => exact Number.unpack_pack h
  | infinity s => cases s <;> rfl

/-- Infinities lie beyond all that is stored. -/
theorem Stored.compare_infinity (h : Stored u) (s : Sign) :
    u.compare (.infinity s) = some (compare (levelOf u) (levelOf (.infinity s))) ∧
      (UnpackedFloat.infinity s).compare u = some (compare (levelOf (.infinity s)) (levelOf u)) := by
  obtain ⟨hlow, hhigh⟩ := h.levelOf_bounds
  cases s with
  | negative =>
    have hlevel : levelOf (.infinity .negative) = -(beyond : Int) := rfl
    rw [hlevel, Int.compare_eq_gt.mpr hlow, Int.compare_eq_lt.mpr hlow]
    cases h.canonical <;> exact ⟨rfl, rfl⟩
  | positive =>
    have hlevel : levelOf (.infinity .positive) = beyond := rfl
    rw [hlevel, Int.compare_eq_lt.mpr hhigh, Int.compare_eq_gt.mpr hhigh]
    cases h.canonical <;> exact ⟨rfl, rfl⟩

/-- Numbers compare as their levels. -/
theorem compare_levelOf (hu : Numeral u) (hv : Numeral v) :
    u.compare v = some (compare (levelOf u) (levelOf v)) := by
  cases hu with
  | stored hu =>
    cases hv with
    | stored hv =>
      rw [levelOf_stored hu, levelOf_stored hv]
      exact compare_canonical hu.canonical hv.canonical
    | infinity t => exact (hu.compare_infinity t).1
  | infinity s =>
    cases hv with
    | stored hv => exact (hv.compare_infinity s).2
    | infinity t =>
      cases s with
      | negative =>
        cases t with
        | negative => exact congrArg some (Int.compare_eq_eq.mpr rfl).symm
        | positive => exact congrArg some (Int.compare_eq_lt.mpr neg_beyond_lt).symm
      | positive =>
        cases t with
        | negative => exact congrArg some (Int.compare_eq_gt.mpr neg_beyond_lt).symm
        | positive => exact congrArg some (Int.compare_eq_eq.mpr rfl).symm

end Levels

section Order

variable {x y : Float}

/-- The place of a double among all numbers. -/
def level (x : Float) : Int := levelOf x.toModel.unpack

theorem unpack_of_not_isFinite (h : x.isFinite = false) :
    x.toModel.unpack = .notANumber ∨ ∃ s, x.toModel.unpack = .infinity s := by
  change x.toModel.unpack.isFinite = false at h
  generalize x.toModel.unpack = u at h
  cases u with
  | notANumber => exact .inl rfl
  | infinity s => exact .inr ⟨s, rfl⟩
  | zero | finite => cases h

theorem numeral_unpack (h : x.isNaN = false) : Numeral x.toModel.unpack := by
  by_cases hf : x.isFinite = true
  · exact .stored (stored_of_isFinite hf)
  · obtain hx | ⟨s, hx⟩ := unpack_of_not_isFinite (Bool.eq_false_iff.mpr hf)
    · exact absurd (congrArg UnpackedFloat.isNaN hx) (Bool.eq_false_iff.mp h)
    · exact hx ▸ .infinity s

theorem lt_iff_level (hx : x.isNaN = false) (hy : y.isNaN = false) : x < y ↔ level x < level y := by
  rw [lt_iff, UnpackedFloat.lt, compare_levelOf (numeral_unpack hx) (numeral_unpack hy), beq_iff_eq,
    Option.some_inj]
  exact Int.compare_eq_lt

theorem le_iff_level (hx : x.isNaN = false) (hy : y.isNaN = false) : x ≤ y ↔ level x ≤ level y := by
  rw [le_iff, UnpackedFloat.le, compare_levelOf (numeral_unpack hx) (numeral_unpack hy)]
  exact Int.isLE_compare

/-- Numbers of one level are equal: the sign of a zero does not count. -/
theorem beq_iff_level (hx : x.isNaN = false) (hy : y.isNaN = false) :
    (x == y) = true ↔ level x = level y := by
  change x.toModel.unpack.beq y.toModel.unpack = true ↔ _
  rw [UnpackedFloat.beq, compare_levelOf (numeral_unpack hx) (numeral_unpack hy), beq_iff_eq,
    Option.some_inj]
  exact Int.compare_eq_eq

/-- Only numbers have an order. -/
theorem isNaN_of_compare {o : Ordering} (h : x.toModel.unpack.compare y.toModel.unpack = some o) :
    x.isNaN = false ∧ y.isNaN = false := by
  change x.toModel.unpack.isNaN = false ∧ y.toModel.unpack.isNaN = false
  generalize x.toModel.unpack = u at h
  generalize y.toModel.unpack = v at h
  cases u with
  | notANumber => cases h
  | _ =>
    cases v with
    | notANumber => cases h
    | _ => exact ⟨rfl, rfl⟩

theorem isNaN_of_lt (h : x < y) : x.isNaN = false ∧ y.isNaN = false :=
  isNaN_of_compare (beq_iff_eq.mp (lt_iff.mp h))

theorem isNaN_of_beq (h : (x == y) = true) : x.isNaN = false ∧ y.isNaN = false :=
  isNaN_of_compare (beq_iff_eq.mp (show x.toModel.unpack.beq y.toModel.unpack = true from h))

end Order

/-! ## Products with units -/

section Units

variable {m k : Nat}

/-- Zeros behind the digits of a stored number are dropped, and nothing else. -/
theorem shiftToTargetExponent_exact (hm : 0 < m) (hlt : m < 2 ^ 53) (hk : k = 0 ∨ 2 ^ 52 ≤ m) (d : Nat) :
    shiftToTargetExponent .binary64 (m * 2 ^ d) (k - 1074 - d) .exact = (⟨m, false, false⟩, (k - 1074 : Int)) := by
  have hbits : Format.binary64.mantissaBits = 53 := rfl
  have hmin : Format.binary64.minExponent = -1074 := rfl
  have hlog : m.log2 < 53 := (Nat.log2_lt (Nat.ne_of_gt hm)).mpr hlt
  have hfull : k = 0 ∨ 52 ≤ m.log2 := hk.imp_right (Nat.le_log2 (Nat.ne_of_gt hm)).mpr
  have htarget : Format.binary64.targetExponent (Float.Model.totalExponent (m * 2 ^ d) (k - 1074 - d)) =
      k - 1074 := by
    unfold Format.targetExponent Float.Model.totalExponent
    rw [hbits, hmin, log2_mul_pow hm]
    omega
  unfold shiftToTargetExponent shiftToExponent
  dsimp only
  rw [htarget, show (k - 1074 - (k - 1074 - d) : Int).toNat = d by omega, Int.sub_add_cancel]
  refine Prod.ext ?_ rfl
  have hshift := shiftRight_exact (m := m * 2 ^ d) (n := d) ⟨m, Nat.mul_comm _ _⟩
  rwa [Nat.mul_div_cancel _ (Nat.two_pow_pos d)] at hshift

theorem roundWithAccuracy_exact (s : Sign) (hm : 0 < m) (hlt : m < 2 ^ 53) (hk : k = 0 ∨ 2 ^ 52 ≤ m) (d : Nat) :
    roundWithAccuracy .binary64 s (m * 2 ^ d) (k - 1074 - d) .exact = .finite s m (k - 1074) hm := by
  have hkeep := shiftToTargetExponent_exact hm hlt hk 0
  rw [Nat.pow_zero, Nat.mul_one, Int.natCast_zero, Int.sub_zero] at hkeep
  unfold roundWithAccuracy
  rw [shiftToTargetExponent_exact hm hlt hk d]
  change (let p := shiftToTargetExponent .binary64 m (k - 1074) .exact
    if h : p.1.mantissa = 0 then UnpackedFloat.zero s
    else .finite s p.1.mantissa p.2 (Nat.pos_of_ne_zero h)) = _
  rw [hkeep]
  exact dif_neg (Nat.ne_of_gt hm)

/-- One, with a sign. -/
def unit (s : Sign) : UnpackedFloat := .finite s (2 ^ 52) (-52) (Nat.two_pow_pos 52)

/-- A number, turned round by a negative sign. -/
def turned (s : Sign) (u : UnpackedFloat) : UnpackedFloat :=
  match s with
  | .positive => u
  | .negative => u.neg

/-- A product with a unit has its digits where the other factor has them. -/
theorem mul_unit (s : Sign) {u : UnpackedFloat} (hu : Canonical u) : mul .binary64 (unit s) u = turned s u := by
  cases hu with
  | zero t => cases s <;> cases t <;> rfl
  | @finite t m k hm hlt hk =>
    change roundWithAccuracy .binary64 (s * t) (2 ^ 52 * m) (-52 + (k - 1074)) .exact = _
    rw [Nat.mul_comm, show (-52 + (k - 1074) : Int) = k - 1074 - (52 : Nat) by omega,
      roundWithAccuracy_exact _ hm hlt hk]
    cases s <;> cases t <;> rfl

theorem Stored.turned {u : UnpackedFloat} (h : Stored u) (s : Sign) : Stored (turned s u) := by
  cases s with
  | positive => exact h
  | negative =>
    refine ⟨h.canonical.neg, ?_⟩
    have hf := h.fits
    cases u <;> exact hf

end Units

section Sums

variable {x y : Float}

theorem unpack_mul_unit {s : Sign} (hx : x.toModel.unpack = unit s) (y : Float) :
    (x * y).toModel.unpack = turned s y.toModel.unpack := by
  change unpack .binary64 (pack .binary64 (mul .binary64 x.toModel.unpack y.toModel.unpack)) = _
  rw [hx]
  by_cases hf : y.isFinite = true
  · have hy := stored_of_isFinite hf
    rw [mul_unit s hy.canonical]
    exact unpack_pack (hy.turned s)
  · obtain hy | ⟨t, hy⟩ := unpack_of_not_isFinite (Bool.eq_false_iff.mpr hf)
    · rw [hy]
      cases s <;> rfl
    · rw [hy]
      cases s <;> cases t <;> rfl

theorem add_one_mul (x y : Float) : x + 1 * y = x + y := by
  change (⟨Float.Model.pack (add .binary64 x.toModel.unpack (1 * y).toModel.unpack)⟩ : Float) = _
  rw [unpack_mul_unit (s := .positive) rfl]
  rfl

theorem add_neg_one_mul (x y : Float) : x + -1 * y = x - y := by
  change (⟨Float.Model.pack (add .binary64 x.toModel.unpack (-1 * y).toModel.unpack)⟩ : Float) = _
  rw [unpack_mul_unit (s := .negative) rfl, turned, ← unpackedSub_eq_add_neg]
  rfl

/-! ## Products with zero -/

theorem unpack_zero_mul (hy : y.isFinite = true) : ∃ s, (0 * y).toModel.unpack = .zero s := by
  change ∃ s, unpack .binary64 (pack .binary64 (mul .binary64 (.zero .positive) y.toModel.unpack)) = .zero s
  have hc := (stored_of_isFinite hy).canonical
  generalize y.toModel.unpack = u at hc
  cases hc <;> exact ⟨_, unpack_pack ⟨.zero _, trivial⟩⟩

theorem levelOf_add_zero {u : UnpackedFloat} (h : Numeral u) (s : Sign) :
    Numeral (add .binary64 u (.zero s)) ∧ levelOf (add .binary64 u (.zero s)) = levelOf u := by
  cases h with
  | infinity t => exact ⟨.infinity t, rfl⟩
  | stored h =>
    cases u with
    | notANumber | infinity => cases h.canonical
    | zero t => cases t <;> cases s <;> exact ⟨.stored ⟨.zero _, trivial⟩, rfl⟩
    | finite t m e hm => exact ⟨.stored h, rfl⟩

/-- A finite multiple of zero does not change a sum. -/
theorem level_add_zero_mul (hx : x.isNaN = false) (hy : y.isFinite = true) :
    (x + 0 * y).isNaN = false ∧ level (x + 0 * y) = level x := by
  obtain ⟨s, hs⟩ := unpack_zero_mul hy
  obtain ⟨hn, hlevel⟩ := levelOf_add_zero (numeral_unpack hx) s
  rw [← hs] at hn hlevel
  have hsum : (x + 0 * y).toModel.unpack = _ := hn.unpack_pack
  exact ⟨(congrArg UnpackedFloat.isNaN hsum).trans hn.isNaN, (congrArg levelOf hsum).trans hlevel⟩

/-- Zero times what is not finite is no number, and no sum with it is. -/
theorem isNaN_add_zero_mul (x : Float) (hy : y.isFinite = false) : (x + 0 * y).isNaN = true := by
  have hmul : mul .binary64 (.zero .positive) y.toModel.unpack = .notANumber := by
    obtain hy | ⟨t, hy⟩ := unpack_of_not_isFinite hy <;> rw [hy] <;> rfl
  have hzero : (0 * y).toModel.unpack = .notANumber :=
    congrArg (fun u => unpack .binary64 (pack .binary64 u)) hmul
  have hadd : add .binary64 x.toModel.unpack (0 * y).toModel.unpack = .notANumber := by
    rw [hzero]
    cases x.toModel.unpack <;> rfl
  exact (isNaN_pack _).trans (congrArg UnpackedFloat.isNaN hadd)

/-! ## Infinite shifts -/

theorem add_infinity {u : UnpackedFloat} {t : Sign} (h : u.isNaN = false) (hne : u ≠ .infinity (-t)) :
    add .binary64 u (.infinity t) = .infinity t := by
  cases u with
  | notANumber => cases h
  | infinity s =>
    cases s <;> cases t <;> first | rfl | exact absurd rfl hne
  | zero | finite => rfl

/-- A shift by an infinity leads to either infinity, unless it comes from the other one. -/
theorem exists_shift {s : Sign} (hx : x.isNaN = false) (hy : y.toModel.unpack = .infinity s) (t : Sign)
    (hne : x.toModel.unpack ≠ .infinity (-t)) :
    ∃ z ∈ [x + y, x - y], z.toModel.unpack = .infinity t := by
  have hinf : unpack .binary64 (pack .binary64 (add .binary64 x.toModel.unpack (.infinity t))) = .infinity t := by
    rw [add_infinity hx hne]
    exact (Numeral.infinity t).unpack_pack
  by_cases hst : s = t
  · refine ⟨x + y, List.mem_cons_self, ?_⟩
    rw [← hinf, ← hst, ← hy]
    rfl
  · have hneg : y.toModel.unpack.neg = .infinity t := by
      rw [hy]
      cases s <;> cases t <;> first | rfl | exact absurd rfl hst
    refine ⟨x - y, List.mem_cons_of_mem _ List.mem_cons_self, ?_⟩
    rw [← hinf, ← hneg, ← unpackedSub_eq_add_neg]
    rfl

/-- What is shifted by an infinity to both sides has its old place in between. -/
theorem shifts_around (hx : x.isNaN = false) (hy : y.isNaN = false) (hf : y.isFinite = false) (t : Sign) :
    ∃ z ∈ [x + y, x - y], z.isNaN = false ∧ t.apply (level x) ≤ t.apply (level z) := by
  obtain hs | ⟨s, hs⟩ := unpack_of_not_isFinite hf
  · exact absurd (congrArg UnpackedFloat.isNaN hs) (Bool.eq_false_iff.mp hy)
  · by_cases hend : x.toModel.unpack = .infinity (-t)
    · -- one of the shifts stays at the end where the old place is
      have hne : x.toModel.unpack ≠ .infinity (- -t) := by
        rw [hend]
        cases t <;> exact fun h => by cases h
      obtain ⟨z, hz, hu⟩ := exists_shift hx hs (-t) hne
      refine ⟨z, hz, congrArg UnpackedFloat.isNaN hu, Int.le_of_eq ?_⟩
      rw [level, level, hend, hu]
    · obtain ⟨z, hz, hu⟩ := exists_shift hx hs t hend
      refine ⟨z, hz, congrArg UnpackedFloat.isNaN hu, ?_⟩
      obtain ⟨hlow, hhigh⟩ := (numeral_unpack hx).levelOf_bounds
      rw [level, level, hu]
      cases t with
      | negative => exact Int.neg_le_neg hlow
      | positive => exact hhigh

end Sums

end Toolpath.Number
