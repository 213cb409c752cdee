import Mathlib
import Toolpath.Proofs.Number.Finite

/-!
# The values of doubles

Every finite double is a whole number of grains, where a grain is the smallest step between two doubles.
The order of doubles is that of their values.

* `grainsOf`, `grains`: the value of a finite number.
* `Canonical`: the digits of stored numbers; `compare_canonical`: they compare as their values.
* `stored_unpack`, `unpack_pack`, `unpack_pack_overflow`: storing and reading back.
* `lt_iff_grains`, `le_iff_grains`, `beq_iff_grains`: the order of doubles.
-/

namespace Toolpath.Number

open Float.Model (UnpackedFloat Format)

open Float.Model.UnpackedFloat

/-! ## Grains -/

/-- The value of a finite number, in steps of the smallest one. -/
def grainsOf : UnpackedFloat → Int
  | .finite s m e _ => s.apply (m * 2 ^ (e + 1074).toNat : Nat)
  | _ => 0

/-- Numbers as they are stored: 53 digits, the first of which is zero only at the lowest place. -/
inductive Canonical : UnpackedFloat → Prop where
  | zero (s : Sign) : Canonical (.zero s)
  | finite (s : Sign) {m k : Nat} (hm : 0 < m) (hlt : m < 2 ^ 53) (hk : k = 0 ∨ 2 ^ 52 ≤ m) :
      Canonical (.finite s m (k - 1074) hm)

@[simp] theorem grainsOf_zero (s : Sign) : grainsOf (.zero s) = 0 := rfl

@[simp] theorem grainsOf_finite (s : Sign) {m k : Nat} (hm : 0 < m) :
    grainsOf (.finite s m (k - 1074) hm) = s.apply (m * 2 ^ k : Nat) := by
  unfold grainsOf
  dsimp only
  rw [Int.sub_add_cancel, Int.toNat_natCast]

theorem grainsOf_positive {m : Nat} {e : Int} (hm : 0 < m) : 0 < grainsOf (.finite .positive m e hm) :=
  Int.ofNat_lt.mpr (Nat.mul_pos hm (Nat.two_pow_pos _))

theorem grainsOf_negative {m : Nat} {e : Int} (hm : 0 < m) : grainsOf (.finite .negative m e hm) < 0 :=
  Int.neg_neg_of_pos (grainsOf_positive hm)

theorem natAbs_apply (s : Sign) (n : Nat) : (s.apply n).natAbs = n := by
  cases s with
  | negative => exact Int.natAbs_neg n
  | positive => rfl

/-! ## Order -/

section Order

variable {m n j k : Nat} {u v : UnpackedFloat}

/-- A higher place wins over any digits. -/
theorem digits_lt (hm : m < 2 ^ 53) (hn : 2 ^ 52 ≤ n) (h : j < k) : m * 2 ^ j < n * 2 ^ k := calc
  m * 2 ^ j < 2 ^ 53 * 2 ^ j := Nat.mul_lt_mul_of_pos_right hm (Nat.two_pow_pos j)
  _ = 2 ^ 52 * 2 ^ (j + 1) := by rw [← Nat.pow_add, ← Nat.pow_add, Nat.add_comm j, ← Nat.add_assoc]
  _ ≤ n * 2 ^ k := Nat.mul_le_mul hn (Nat.pow_le_pow_right (by decide) h)

theorem compare_digits (hm : m < 2 ^ 53) (hj : j = 0 ∨ 2 ^ 52 ≤ m) (hn : n < 2 ^ 53)
    (hk : k = 0 ∨ 2 ^ 52 ≤ n) :
    (compare (j - 1074 : Int) (k - 1074)).then (compare m n) = compare (m * 2 ^ j) (n * 2 ^ k) := by
  rcases Nat.lt_trichotomy j k with h | rfl | h
  · have hlt := digits_lt hm (hk.resolve_left (by omega)) h
    rw [Int.compare_eq_lt.mpr (by omega), Nat.compare_eq_lt.mpr hlt]
    rfl
  · rw [Int.compare_eq_eq.mpr rfl, Nat.compare_eq_ite_lt, Nat.compare_eq_ite_lt]
    simp only [Nat.mul_lt_mul_right (Nat.two_pow_pos j)]
    rfl
  · have hlt := digits_lt hn (hj.resolve_left (by omega)) h
    rw [Int.compare_eq_gt.mpr (by omega), Nat.compare_eq_gt.mpr hlt]
    rfl

theorem compare_positive (a b : Nat) :
    compare (Sign.positive.apply a) (Sign.positive.apply b) = compare a b := by
  rw [Int.compare_eq_ite_lt, Nat.compare_eq_ite_lt]
  simp only [Sign.apply, Int.ofNat_lt]

theorem compare_negative (a b : Nat) :
    compare (Sign.negative.apply a) (Sign.negative.apply b) = (compare a b).swap := by
  rw [Nat.compare_swap, Int.compare_eq_ite_lt, Nat.compare_eq_ite_lt]
  simp only [Sign.apply, Int.neg_lt_neg_iff, Int.ofNat_lt]

/-- Stored numbers compare as their values. -/
theorem compare_canonical (hu : Canonical u) (hv : Canonical v) :
    u.compare v = some (compare (grainsOf u) (grainsOf v)) := by
  cases hu with
  | zero s =>
    cases hv with
    | zero t => rfl
    | finite t hn hnlt hk =>
      cases t with
      | negative => exact congrArg some (Int.compare_eq_gt.mpr (grainsOf_negative hn)).symm
      | positive => exact congrArg some (Int.compare_eq_lt.mpr (grainsOf_positive hn)).symm
  | finite s hm hmlt hj =>
    cases hv with
    | zero t =>
      cases s with
      | negative => exact congrArg some (Int.compare_eq_lt.mpr (grainsOf_negative hm)).symm
      | positive => exact congrArg some (Int.compare_eq_gt.mpr (grainsOf_positive hm)).symm
    | finite t hn hnlt hk =>
      have hdigits := compare_digits hmlt hj hnlt hk
      cases s with
      | negative =>
        cases t with
        | negative =>
          rw [grainsOf_finite, grainsOf_finite, compare_negative, ← hdigits]
          rfl
        | positive =>
          refine congrArg some (Int.compare_eq_lt.mpr ?_).symm
          exact Int.lt_trans (grainsOf_negative hm) (grainsOf_positive hn)
      | positive =>
        cases t with
        | negative =>
          refine congrArg some (Int.compare_eq_gt.mpr ?_).symm
          exact Int.lt_trans (grainsOf_negative hn) (grainsOf_positive hm)
        | positive =>
          rw [grainsOf_finite, grainsOf_finite, compare_positive, ← hdigits]
          rfl

theorem le_canonical (hu : Canonical u) (hv : Canonical v) :
    u.le v = true ↔ grainsOf u ≤ grainsOf v := by
  rw [UnpackedFloat.le, compare_canonical hu hv]
  exact Int.isLE_compare

theorem lt_canonical (hu : Canonical u) (hv : Canonical v) :
    u.lt v = true ↔ grainsOf u < grainsOf v := by
  rw [UnpackedFloat.lt, compare_canonical hu hv, beq_iff_eq, Option.some_inj]
  exact Int.compare_eq_lt

theorem beq_canonical (hu : Canonical u) (hv : Canonical v) :
    u.beq v = true ↔ grainsOf u = grainsOf v := by
  rw [UnpackedFloat.beq, compare_canonical hu hv, beq_iff_eq, Option.some_inj]
  exact Int.compare_eq_eq

end Order

/-! ## Storing and reading back -/

section Storing

variable {u : UnpackedFloat} {m k : Nat} {e : Int}

/-- There is room for the exponent. -/
def Fits : UnpackedFloat → Prop
  | .finite _ _ e _ => e < 972
  | _ => True

/-- Numbers as there are among the doubles. -/
structure Stored (u : UnpackedFloat) : Prop where
  canonical : Canonical u
  fits : Fits u

theorem stored_finite (s : Sign) (hm : 0 < m) (hlt : m < 2 ^ 53) (hk : k = 0 ∨ 2 ^ 52 ≤ m)
    (hroom : k < 2046) (he : e = k - 1074) : Stored (.finite s m e hm) := by
  subst he
  refine ⟨.finite s hm hlt hk, ?_⟩
  change (k - 1074 : Int) < 972
  omega

/-- What there is no room for is beyond all that is stored. -/
theorem Stored.natAbs_lt (h : Stored u) (hm : 2 ^ 52 ≤ m) (hk : 2046 ≤ k) :
    (grainsOf u).natAbs < m * 2 ^ k := by
  obtain ⟨hc, hf⟩ := h
  cases hc with
  | zero s => exact Nat.mul_pos (by omega) (Nat.two_pow_pos k)
  | @finite s n j hn hnlt hj =>
    change (j - 1074 : Int) < 972 at hf
    rw [grainsOf_finite, natAbs_apply]
    exact digits_lt hnlt hm (by omega)

theorem toNat_implicit (m : BitVec 52) : (1#1 ++ m).toNat = 2 ^ 52 + m.toNat := by
  rw [BitVec.toNat_append, ← Nat.shiftLeft_add_eq_or_of_lt m.isLt]
  rfl

theorem stored_unpack {b : BitVec Format.binary64.numBits}
    (h : (unpack .binary64 b).isFinite = true) : Stored (unpack .binary64 b) := by
  rw [isFinite_unpack] at h
  unfold unpack
  dsimp only
  rw [if_neg h]
  have hbias : (Format.binary64.exponentBias : Int) = 1023 := rfl
  have hmlt : (unpackMantissa b).toNat < 2 ^ 52 := (unpackMantissa b).isLt
  by_cases hlow : unpackExponent b = 0#11
  · rw [if_pos hlow]
    by_cases hm : unpackMantissa b = 0#52
    · rw [dif_pos hm]
      exact ⟨.zero _, trivial⟩
    · rw [dif_neg hm]
      refine stored_finite (k := 0) _ _ (by omega) (.inl rfl) (by decide) ?_
      rw [hlow, hbias]
      rfl
  · rw [if_neg hlow]
    have hlt : (unpackExponent b).toNat < 2048 := (unpackExponent b).isLt
    have htop : (unpackExponent b).toNat ≠ 2047 := fun he => h (BitVec.eq_of_toNat_eq he)
    have hpos : (unpackExponent b).toNat ≠ 0 := fun he => hlow (BitVec.eq_of_toNat_eq he)
    have hm := toNat_implicit (unpackMantissa b)
    refine stored_finite (k := (unpackExponent b).toNat - 1) _ _ (by omega) (.inr (by omega)) (by omega) ?_
    rw [hbias]
    omega

theorem unpackSign_packComponents {spec : Format} (s : Sign) (e : BitVec spec.exponentBits)
    (m : BitVec spec.mantissaBitsWithoutImplicit) :
    Sign.ofBitVec (unpackSign (packComponents spec s e m)) = s := by
  have h : unpackSign (packComponents spec s e m) = s.toBitVec := by
    ext i hi
    obtain rfl : i = 0 := by omega
    simp [unpackSign, packComponents, BitVec.getLsbD_append, BitVec.getElem_append]
  rw [h]
  cases s <;> rfl

theorem unpack_normal (s : Sign) (hm : 0 < m) (hlow : 2 ^ 52 ≤ m) (hlt : m < 2 ^ 53) (hroom : k < 2046) :
    unpack .binary64 (packComponents .binary64 s (BitVec.ofNat 11 (k + 1)) (BitVec.ofNat 52 m)) =
      .finite s m (k - 1074) hm := by
  have he : (BitVec.ofNat 11 (k + 1)).toNat = k + 1 := by
    rw [BitVec.toNat_ofNat]
    omega
  have htop : BitVec.ofNat 11 (k + 1) ≠ -1#11 := fun h => by
    rw [h] at he
    change 2047 = _ at he
    omega
  have hpos : BitVec.ofNat 11 (k + 1) ≠ 0#11 := fun h => by
    rw [h] at he
    cases he
  unfold unpack
  simp only [unpackExponent_packComponents, unpackMantissa_packComponents, unpackSign_packComponents]
  rw [if_neg htop, if_neg hpos, UnpackedFloat.finite.injEq]
  refine ⟨rfl, ?_, ?_⟩
  · rw [toNat_implicit, BitVec.toNat_ofNat]
    omega
  · rw [he]
    change (k + 1 : Nat) - (1023 + 52 : Int) = _
    omega

theorem unpack_low (s : Sign) (hm : 0 < m) (hlt : m < 2 ^ 52) :
    unpack .binary64 (packComponents .binary64 s 0#11 (BitVec.ofNat 52 m)) = .finite s m (-1074) hm := by
  have hn : (BitVec.ofNat 52 m).toNat = m := by
    rw [BitVec.toNat_ofNat]
    omega
  have hpos : BitVec.ofNat 52 m ≠ 0#52 := fun h => by
    rw [h] at hn
    change 0 = _ at hn
    omega
  unfold unpack
  simp only [unpackExponent_packComponents, unpackMantissa_packComponents, unpackSign_packComponents]
  rw [if_neg (by decide), if_pos trivial, dif_neg hpos, UnpackedFloat.finite.injEq]
  exact ⟨rfl, hn, rfl⟩

/-- Nothing is lost by storing what there is room for. -/
theorem unpack_pack (h : Stored u) : unpack .binary64 (pack .binary64 u) = u := by
  obtain ⟨hc, hf⟩ := h
  cases hc with
  | zero s => cases s <;> rfl
  | @finite s m k hm hlt hk =>
    change (k - 1074 : Int) < 972 at hf
    have hbiased : (k - 1074 + Format.binary64.exponentBias + (52 : Nat) : Int).toNat = k + 1 := by
      change (k - 1074 + 1023 + 52 : Int).toNat = _
      omega
    unfold pack
    dsimp only
    rw [hbiased, if_neg (by change ¬ 2048 ≤ _; omega)]
    by_cases hn : 2 ^ 52 ≤ m
    · have hlog : m.log2 = 52 := (Nat.log2_eq_iff (by omega)).mpr ⟨hn, hlt⟩
      rw [if_pos (by rw [hlog]; rfl)]
      exact unpack_normal s hm hn hlt (by omega)
    · obtain rfl : k = 0 := hk.resolve_right hn
      have hlog : m.log2 < 52 := (Nat.log2_lt (by omega)).mpr (by omega)
      rw [if_neg (by change ¬ _ = 53; omega)]
      exact unpack_low s hm (by omega)

/-- What there is no room for is stored as an infinity. -/
theorem unpack_pack_overflow (s : Sign) (hm : 0 < m) (he : 972 ≤ e) :
    unpack .binary64 (pack .binary64 (.finite s m e hm)) = .infinity s := by
  unfold pack
  dsimp only
  rw [if_pos]
  · cases s <;> rfl
  · change 2048 ≤ (e + 1023 + 52 : Int).toNat + 1
    omega

end Storing

/-! ## Doubles -/

section Doubles

variable {x y low high : Float}

/-- The value of a finite double. -/
def grains (x : Float) : Int := grainsOf x.toModel.unpack

theorem stored_of_isFinite (h : x.isFinite = true) : Stored x.toModel.unpack := stored_unpack h

theorem lt_iff_grains (hx : x.isFinite = true) (hy : y.isFinite = true) : x < y ↔ grains x < grains y :=
  lt_iff.trans (lt_canonical (stored_of_isFinite hx).canonical (stored_of_isFinite hy).canonical)

theorem le_iff_grains (hx : x.isFinite = true) (hy : y.isFinite = true) : x ≤ y ↔ grains x ≤ grains y :=
  le_iff.trans (le_canonical (stored_of_isFinite hx).canonical (stored_of_isFinite hy).canonical)

/-- Doubles of one value are equal: the sign of a zero does not count. -/
theorem beq_iff_grains (hx : x.isFinite = true) (hy : y.isFinite = true) :
    (x == y) = true ↔ grains x = grains y :=
  beq_canonical (stored_of_isFinite hx).canonical (stored_of_isFinite hy).canonical

theorem isFinite_zero : (0 : Float).isFinite = true := by decide

theorem grains_zero : grains 0 = 0 := rfl

/-- What lies between finite doubles is finite. -/
theorem isFinite_of_le_of_le (hlow : low.isFinite = true) (hhigh : high.isFinite = true) (hl : low ≤ x)
    (hh : x ≤ high) : x.isFinite = true := by
  rw [le_iff] at hl hh
  change x.toModel.unpack.isFinite = true
  change low.toModel.unpack.isFinite = true at hlow
  change high.toModel.unpack.isFinite = true at hhigh
  generalize x.toModel.unpack = u at hl hh ⊢
  generalize low.toModel.unpack = l at hlow hl
  generalize high.toModel.unpack = t at hhigh hh
  cases u with
  | notANumber => cases t <;> cases hh
  | infinity s =>
    cases s with
    | positive =>
      cases t with
      | notANumber | infinity => cases hhigh
      | zero | finite => cases hh
    | negative =>
      cases l with
      | notANumber | infinity => cases hlow
      | zero | finite => cases hl
  | zero | finite => rfl

end Doubles

end Toolpath.Number
