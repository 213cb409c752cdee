import Toolpath.Proofs.Number.Level

/-!
# Products and natural numbers as doubles

A product of doubles is rounded once, and so is the double of a natural number (`Float.ofNat`,
`Float.ofScientific`).

* `one`: the value of the double 1.
* `rounded_mul`, `isFinite_mul`: products of doubles of at least one.
* `RoundsTo.error`: rounding takes nothing further up than by its last digit.
* `Stands`, `stands_ofNat`, `stands_power`: natural numbers and powers of ten as doubles.
* `isFinite_scaled`: a natural number can be scaled by a power of ten if there is room for the exact product.
-/

namespace Toolpath.Number

open Float.Model (UnpackedFloat Format)

open Float.Model.UnpackedFloat

/-- The value of one, in grains. -/
def one : Nat := 2 ^ 1074

theorem one_eq {k : Nat} (h : 1074 = k) : one = 2 ^ k := h ▸ rfl

theorem one_pos : 0 < one := by
  obtain ⟨k, hk⟩ : ∃ k, 1074 = k := ⟨_, rfl⟩
  rw [one_eq hk]
  exact Nat.two_pow_pos k

/-! ## Products -/

section Products

variable {m n j k : Nat}

theorem le_place_of_le (hm : 2 ^ 52 ≤ m) (j : Nat) : j ≤ place (m * 2 ^ j) := by
  have hpos : 0 < m := Nat.lt_of_lt_of_le (Nat.two_pow_pos 52) hm
  have hlog : 52 ≤ m.log2 := (Nat.le_log2 (Nat.ne_of_gt hpos)).mpr hm
  unfold place
  rw [log2_mul_pow hpos]
  omega

/-- The product of two numbers with all their digits. -/
theorem roundsTo_mul (hm : 2 ^ 52 ≤ m) (hjk : 1074 ≤ j + k) (hm' : 0 < m) (hn' : 0 < n) :
    RoundsTo (m * n * 2 ^ (j + k - 1074) : Nat)
      (mul .binary64 (.finite .positive m (j - 1074) hm') (.finite .positive n (k - 1074) hn')) := by
  have hfull : 2 ^ 52 ≤ m * n := Nat.le_trans hm (Nat.le_mul_of_pos_right m hn')
  have hround := roundsTo_roundWithAccuracy (Nat.mul_pos hm' hn') (le_place_of_le hfull (j + k - 1074))
  have hexponent : ((j + k - 1074 : Nat) : Int) - 1074 = (j - 1074) + (k - 1074) := by omega
  rw [hexponent] at hround
  exact hround

variable {x y z : Float}

/-- The digits of a double of at least one. -/
theorem exists_digits_of_one_le (hx : x.isFinite = true) (h : (one : Int) ≤ grains x) :
    ∃ (m j : Nat) (hm : 0 < m), 2 ^ 52 ≤ m ∧ 1022 ≤ j ∧ x.toModel.unpack = .finite .positive m (j - 1074) hm ∧
      grains x = (m * 2 ^ j : Nat) := by
  have hone := one_pos
  have hc := (stored_of_isFinite hx).canonical
  unfold grains at h ⊢
  generalize x.toModel.unpack = u at hc h
  cases hc with
  | zero s =>
    rw [grainsOf_zero] at h
    omega
  | @finite s m j hm hlt hj =>
    cases s with
    | negative =>
      have hneg := grainsOf_negative (m := m) (e := j - 1074) hm
      omega
    | positive =>
      rw [grainsOf_finite] at h ⊢
      have hlow : one < 2 ^ (53 + j) := by
        rw [Nat.pow_add]
        exact Nat.lt_of_le_of_lt (Int.ofNat_le.mp h) (Nat.mul_lt_mul_of_pos_right hlt (Nat.two_pow_pos j))
      have hj' : 1074 < 53 + j := (Nat.pow_lt_pow_iff_right (by decide)).mp (one_eq rfl ▸ hlow)
      exact ⟨m, j, hm, hj.resolve_left (by omega), by omega, rfl, rfl⟩

theorem mul_one_grains (m n : Nat) (h : 1074 ≤ j + k) :
    m * n * 2 ^ (j + k - 1074) * one = m * 2 ^ j * (n * 2 ^ k) := by
  rw [one_eq rfl, Nat.mul_assoc (m * n), ← Nat.pow_add, Nat.sub_add_cancel h, Nat.pow_add, Nat.mul_mul_mul_comm]

/-- The product of two doubles of at least one is rounded once. -/
theorem rounded_mul (hx : x.isFinite = true) (hy : y.isFinite = true) (hx1 : (one : Int) ≤ grains x)
    (hy1 : (one : Int) ≤ grains y) : ∃ n : Nat, (n : Int) * one = grains x * grains y ∧ Rounded n (x * y) := by
  obtain ⟨m, j, hm, hm52, hj, hxu, hxg⟩ := exists_digits_of_one_le hx hx1
  obtain ⟨n, k, hn, -, hk, hyu, hyg⟩ := exists_digits_of_one_le hy hy1
  have hround := roundsTo_mul hm52 (by omega : 1074 ≤ j + k) hm hn
  refine ⟨_, ?_, hround.rounded ?_⟩
  · rw [hxg, hyg, ← Int.natCast_mul, ← Int.natCast_mul, mul_one_grains m n (by omega)]
  · change unpack .binary64 (pack .binary64 (mul .binary64 x.toModel.unpack y.toModel.unpack)) = _
    rw [hxu, hyu]

/-- A product that is no greater than a double is finite. -/
theorem isFinite_mul (hx : x.isFinite = true) (hy : y.isFinite = true) (hz : z.isFinite = true)
    (hx1 : (one : Int) ≤ grains x) (hy1 : (one : Int) ≤ grains y) (h : grains x * grains y ≤ grains z * one) :
    (x * y).isFinite = true := by
  have hone := one_pos
  obtain ⟨n, hn, hround⟩ := rounded_mul hx hy hx1 hy1
  have hle : (n : Int) ≤ grains z := Int.le_of_mul_le_mul_right (hn ▸ h) (by omega)
  exact (hround.between isFinite_zero hz (by rw [grains_zero]; omega) hle).1

end Products

/-! ## The error of rounding -/

section Error

variable {n d b : Nat} {u : UnpackedFloat} {x y : Float}

/-- Above every number there is a stored one that is at most one step away. -/
theorem exists_canonical_above (hn : 0 < n) :
    ∃ v, Canonical v ∧ (n : Int) ≤ grainsOf v ∧ grainsOf v * 2 ^ 52 ≤ (n * (2 ^ 52 + 1) : Nat) := by
  by_cases hp : place n = 0
  · have hlog : n.log2 < 53 := by
      unfold place at hp
      omega
    refine ⟨_, .finite .positive (k := 0) hn ((Nat.log2_lt (Nat.ne_of_gt hn)).mp hlog) (.inl rfl), ?_⟩
    rw [grainsOf_finite]
    change (n : Int) ≤ (n * 1 : Nat) ∧ ((n * 1 : Nat) : Int) * 2 ^ 52 ≤ _
    omega
  · -- one digit more may be one too many, and then all of them but the first are zero
    have hlow := pow_le_of_place_pos hn (Nat.pos_of_ne_zero hp)
    have hhigh : n / 2 ^ place n < 2 ^ 53 := by
      rw [Nat.div_lt_iff_lt_mul (Nat.two_pow_pos _), ← Nat.pow_add]
      refine Nat.lt_of_lt_of_le Nat.lt_log2_self (Nat.pow_le_pow_right (by decide) ?_)
      unfold place
      omega
    have hfull : 2 ^ 52 ≤ n / 2 ^ place n := (Nat.le_div_iff_mul_le (Nat.two_pow_pos _)).mpr hlow
    have hup : n < (n / 2 ^ place n + 1) * 2 ^ place n := by
      rw [Nat.mul_comm]
      exact Nat.lt_mul_div_succ n (Nat.two_pow_pos _)
    have hdown : (n / 2 ^ place n + 1) * 2 ^ place n ≤ n + 2 ^ place n := by
      rw [Nat.succ_mul]
      exact Nat.add_le_add_right (Nat.div_mul_le_self _ _) _
    have hvalue : ∀ g : Int, g = ((n / 2 ^ place n + 1) * 2 ^ place n : Nat) →
        (n : Int) ≤ g ∧ g * 2 ^ 52 ≤ (n * (2 ^ 52 + 1) : Nat) := by
      rintro g rfl
      omega
    rcases Nat.lt_or_eq_of_le (Nat.succ_le_of_lt hhigh) with hlt | heq
    · exact ⟨_, .finite .positive (Nat.succ_pos _) hlt (.inr (Nat.le_succ_of_le hfull)),
        hvalue _ (grainsOf_finite .positive _)⟩
    · refine ⟨_, .finite .positive (k := place n + 1) (Nat.two_pow_pos 52) (by decide) (.inr (Nat.le_refl _)),
        hvalue _ ((grainsOf_finite .positive _).trans ?_)⟩
      have htop : 2 ^ 52 * 2 ^ (place n + 1) = (n / 2 ^ place n + 1) * 2 ^ place n := by
        rw [← Nat.succ_eq_add_one (n / 2 ^ place n), heq, ← Nat.pow_add, ← Nat.pow_add]
        congr 1
        omega
      rw [htop]
      rfl

theorem RoundsTo.error (h : RoundsTo n u) (hn : 0 < n) : grainsOf u * 2 ^ 52 ≤ (n * (2 ^ 52 + 1) : Nat) := by
  obtain ⟨v, hv, hle, herror⟩ := exists_canonical_above hn
  have hu := h.le v hv hle
  omega

/-- The upper end of the reals that round to the sixth greatest double. -/
def ceiling : Nat := (2 ^ 54 - 11) * 2 ^ 970

/-- The greatest double. -/
def greatest : Float := Float.ofBits 0x7fefffffffffffff

theorem isFinite_greatest : greatest.isFinite = true := by decide +kernel

/-- There is room above the ceiling for the errors of a sum. -/
theorem ceiling_lt_beyond : ceiling * one * (2 ^ 52 + 1) < beyond * 2 ^ 52 := by decide +kernel

/-- There is room above the ceiling for the errors of both factors of a product. -/
theorem ceiling_le_greatest : ((ceiling * (2 ^ 52 + 1) ^ 2 * one : Nat) : Int) ≤ grains greatest * 2 ^ 104 := by
  decide +kernel

/-- A double that is the rounded value of a natural number. -/
structure Stands (d : Nat) (x : Float) : Prop where
  finite : x.isFinite = true
  one_le : (one : Int) ≤ grains x
  error : grains x * 2 ^ 52 ≤ (d * one * (2 ^ 52 + 1) : Nat)

/-- A canonical value below the first one beyond the range is one that a double can hold. -/
theorem Canonical.fits (hc : Canonical u) (hpos : 0 ≤ grainsOf u) (hlt : grainsOf u < beyond) : Fits u := by
  cases hc with
  | zero s => trivial
  | @finite s m k hm hlt' hk =>
    by_contra hf
    have hk' : 2046 ≤ k := by
      change ¬ (k - 1074 : Int) < 972 at hf
      omega
    have hpow : ∀ j, j ≤ k → 2 ^ 52 * 2 ^ j ≤ m * 2 ^ k := fun j hj =>
      Nat.mul_le_mul (hk.resolve_left (by omega)) (Nat.pow_le_pow_right (by decide) hj)
    have hbeyond : beyond ≤ m * 2 ^ k := by
      rw [beyond]
      exact hpow _ hk'
    cases s with
    | negative => exact absurd hpos (Int.not_le.mpr (grainsOf_negative hm))
    | positive =>
      rw [grainsOf_finite] at hlt
      change ((m * 2 ^ k : Nat) : Int) < _ at hlt
      omega

/-- Below the ceiling no natural number overflows. -/
theorem RoundsTo.stands (h : RoundsTo (d * one : Nat) u) (hx : x.toModel.unpack = unpack .binary64 (pack .binary64 u))
    (hd : 0 < d) (hle : d ≤ ceiling) : Stands d x := by
  have hone := one_pos
  have herror := h.error (Nat.mul_pos hd hone)
  have hbound : d * one * (2 ^ 52 + 1) ≤ ceiling * one * (2 ^ 52 + 1) :=
    Nat.mul_le_mul_right _ (Nat.mul_le_mul_right _ hle)
  have hroom := ceiling_lt_beyond
  have hfits : Fits u := h.canonical.fits (h.ge _ (.zero .positive) (Int.natCast_nonneg _)) (by omega)
  have hstored : x.toModel.unpack = u := hx.trans (unpack_pack ⟨h.canonical, hfits⟩)
  have hgrains : grains x = grainsOf u := congrArg grainsOf hstored
  refine ⟨?_, ?_, hgrains ▸ herror⟩
  · change x.toModel.unpack.isFinite = true
    rw [hstored]
    have hc := h.canonical
    cases hc <;> rfl
  · have hunit : Stored (1 : Float).toModel.unpack := stored_of_isFinite (by decide)
    have hvalue : grainsOf (1 : Float).toModel.unpack = one := by decide +kernel
    rw [hgrains, ← hvalue]
    refine h.ge _ hunit.canonical ?_
    rw [hvalue]
    exact Int.ofNat_le.mpr (Nat.le_mul_of_pos_left one hd)

/-- A product of two natural numbers below the ceiling does not overflow. -/
theorem Stands.isFinite_mul (hx : Stands d x) (hy : Stands b y) (h : d * b ≤ ceiling) : (x * y).isFinite = true := by
  refine Number.isFinite_mul hx.finite hy.finite isFinite_greatest hx.one_le hy.one_le ?_
  have hproduct : grains x * 2 ^ 52 * (grains y * 2 ^ 52) ≤
      (d * one * (2 ^ 52 + 1) : Nat) * (b * one * (2 ^ 52 + 1) : Nat) :=
    Int.mul_le_mul hx.error hy.error
      (Int.mul_nonneg (Int.le_trans (Int.natCast_nonneg _) hy.one_le) (by decide)) (Int.natCast_nonneg _)
  refine le_of_mul_le_mul_right ?_ (show (0 : Int) < 2 ^ 104 by decide)
  calc grains x * grains y * 2 ^ 104
    _ = grains x * 2 ^ 52 * (grains y * 2 ^ 52) := by ring
    _ ≤ (d * one * (2 ^ 52 + 1) : Nat) * (b * one * (2 ^ 52 + 1) : Nat) := hproduct
    _ = (d * b : Nat) * (((2 ^ 52 + 1) ^ 2 * one * one : Nat) : Int) := by push_cast; ring
    _ ≤ ceiling * (((2 ^ 52 + 1) ^ 2 * one * one : Nat) : Int) :=
      Int.mul_le_mul_of_nonneg_right (Int.ofNat_le.mpr h) (Int.natCast_nonneg _)
    _ = (ceiling * (2 ^ 52 + 1) ^ 2 * one : Nat) * one := by push_cast; ring
    _ ≤ grains greatest * 2 ^ 104 * one := Int.mul_le_mul_of_nonneg_right ceiling_le_greatest (Int.natCast_nonneg _)
    _ = grains greatest * one * 2 ^ 104 := by ring

end Error

/-! ## Natural numbers -/

section Naturals

variable {d e : Nat}

theorem unpackedMul_comm (u v : UnpackedFloat) : mul .binary64 u v = mul .binary64 v u := by
  cases u with
  | finite s m e hm =>
    cases v with
    | finite t n f hn =>
      change roundWithAccuracy .binary64 (s * t) (m * n) (e + f) .exact =
        roundWithAccuracy .binary64 (t * s) (n * m) (f + e) .exact
      rw [Nat.mul_comm, Int.add_comm]
      cases s <;> cases t <;> rfl
    | infinity t | zero t => cases s <;> cases t <;> rfl
    | notANumber => rfl
  | infinity s | zero s =>
    cases v with
    | finite t | infinity t | zero t => cases s <;> cases t <;> rfl
    | notANumber => rfl
  | notANumber => cases v <;> rfl

theorem unpack_mul_one (x : Float) : (x * 1).toModel.unpack = x.toModel.unpack := by
  change unpack .binary64 (pack .binary64 (mul .binary64 x.toModel.unpack (1 : Float).toModel.unpack)) = _
  rw [unpackedMul_comm]
  exact unpack_mul_unit (s := .positive) rfl x

theorem roundsTo_normalizeNat (d : Nat) :
    RoundsTo (d * one : Nat) (UnpackedFloat.normalize .binary64 d 0 .positive) := by
  have h := roundsTo_normalize d 1074 .positive
  have hcast : (d : Int) * 2 ^ 1074 = (d * one : Nat) := by
    rw [one_eq rfl, Int.natCast_mul, Int.natCast_pow]
    rfl
  rw [hcast] at h
  exact h

/-- Digits and a power of ten are taken as one product, with zeros enough behind the digits. -/
theorem roundsTo_ofScientific (hd : 0 < d) (he : e ≤ 2 ^ 11) :
    RoundsTo (d * 10 ^ e * one : Nat) (UnpackedFloat.ofScientific .binary64 d e) := by
  have hbits : Format.binary64.exponentBits = 11 := rfl
  have hpower : 0 < 10 ^ e := Nat.pow_pos (by decide)
  have hfull : 2 ^ 52 ≤ d <<< 53 * 10 ^ e := by
    rw [Nat.shiftLeft_eq]
    refine Nat.le_trans ?_ (Nat.le_mul_of_pos_right _ hpower)
    omega
  have hround := roundsTo_roundWithAccuracy (Nat.lt_of_lt_of_le (by decide) hfull) (le_place_of_le hfull 1021)
  have hvalue : ∀ j k, j + k = 1074 → d <<< j * 10 ^ e * 2 ^ k = d * 10 ^ e * one := by
    intro j k h
    rw [one_eq h.symm, Nat.shiftLeft_eq, Nat.mul_right_comm d, Nat.mul_assoc, ← Nat.pow_add]
  have hlarge : ¬ (e : Int) > 2 ^ Format.binary64.exponentBits := by
    rw [hbits]
    exact_mod_cast Nat.not_lt.mpr he
  have hsmall : ¬ (e : Int) < -(2 ^ Format.binary64.exponentBits + (d.log2 : Int)) := by
    rw [hbits]
    omega
  rw [hvalue 53 1021 rfl] at hround
  rw [UnpackedFloat.ofScientific, dif_neg (Nat.ne_of_gt hd), if_neg hlarge, if_neg hsmall,
    if_pos (Int.natCast_nonneg e)]
  exact hround

/-- **Natural numbers** as doubles. -/
theorem stands_ofNat (hd : 0 < d) (hle : d ≤ ceiling) : Stands d (Float.ofNat d) := by
  change Stands d (Float.ofScientific d false 0)
  unfold Float.ofScientific
  split
  · rename_i h
    have hword : d.toUInt64.toNat = d := by
      rw [Nat.toUInt64, UInt64.toNat_ofNat', Nat.mod_eq_of_lt (by omega)]
    refine (roundsTo_normalizeNat d).stands ((unpack_mul_one d.toUInt64.toFloat).trans ?_) hd hle
    change unpack .binary64 (pack .binary64 (UnpackedFloat.normalize .binary64 d.toUInt64.toNat 0 .positive)) = _
    rw [hword]
  · have hround := roundsTo_ofScientific (e := 0) hd (by decide)
    rw [Nat.pow_zero, Nat.mul_one] at hround
    exact hround.stands rfl hd hle

/-- The powers of ten that are doubles are taken from a table. -/
theorem stands_short_power : ∀ e ∈ List.range 23,
    (Float.ofScientific 1 false e).isFinite = true ∧ (one : Int) ≤ grains (Float.ofScientific 1 false e) ∧
      grains (Float.ofScientific 1 false e) * 2 ^ 52 ≤ (10 ^ e * one * (2 ^ 52 + 1) : Nat) := by
  decide +kernel

theorem lt_of_pow_le_ceiling (he : 10 ^ e ≤ ceiling) : e < 309 := by
  by_contra hle
  exact absurd (Nat.le_trans (Nat.pow_le_pow_right (by decide) (Nat.not_lt.mp hle)) he) (by decide +kernel)

/-- **Powers of ten** as doubles. -/
theorem stands_power (he : 10 ^ e ≤ ceiling) : Stands (10 ^ e) (Float.ofScientific 1 false e) := by
  by_cases hshort : e ≤ 22
  · obtain ⟨hfinite, hle, herror⟩ := stands_short_power e (List.mem_range.mpr (by omega))
    exact ⟨hfinite, hle, herror⟩
  · have hlt := lt_of_pow_le_ceiling he
    have hround := roundsTo_ofScientific (d := 1) (e := e) (by decide) (by omega)
    rw [Nat.one_mul] at hround
    refine hround.stands ?_ (Nat.pow_pos (by decide)) he
    rw [Float.ofScientific, dif_neg (by omega)]
    rfl

/-- **Scaling by a power of ten** does not overflow below the ceiling. -/
theorem isFinite_scaled (hd : 0 < d) (h : d * 10 ^ e ≤ ceiling) :
    (Float.ofNat d * Float.ofScientific 1 false e).isFinite = true := by
  have hpower : 0 < 10 ^ e := Nat.pow_pos (by decide)
  exact (stands_ofNat hd (Nat.le_trans (Nat.le_mul_of_pos_right d hpower) h)).isFinite_mul
    (stands_power (Nat.le_trans (Nat.le_mul_of_pos_left _ hd) h)) h

end Naturals

end Toolpath.Number
