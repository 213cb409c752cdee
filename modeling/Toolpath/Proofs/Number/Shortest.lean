import Mathlib
import Toolpath.Number.Decimal

/-!
# The shortest digits of a double

The decimals that `shortest` finds for `m · 2 ^ q`. The values are compared as rational numbers.

* `Decimal.toRat`: the value of a decimal.
* `lt_pointPosition`: a double is below the power of ten that its point stands for.
* `searchGrids_near`: what a search through the grids finds.
* `shortest_digits`, `shortest_toRat_le`: there are few digits, and they stand for little more than the double.
-/

namespace Toolpath.Number

/-- The value of a decimal. -/
def Decimal.toRat (d : Decimal) : ℚ := d.digits * 10 ^ d.exponent

variable {m : Nat} {q : Int}

/-! ## Comparing -/

section Comparing

variable {a b : Nat} {p k : Int}

theorem zpow_eq_div {x : ℚ} (hx : x ≠ 0) (p : Int) : x ^ p = x ^ p.toNat / x ^ (-p).toNat := by
  rw [eq_div_iff (pow_ne_zero _ hx), ← zpow_natCast, ← zpow_natCast, ← zpow_add₀ hx]
  congr 1
  omega

theorem twoTo_cast (n : Nat) : ((twoTo n : Nat) : ℚ) = 2 ^ n := by
  rw [twoTo, Nat.pow_eq]
  push_cast
  rfl

theorem tenTo_cast (n : Nat) : ((tenTo n : Nat) : ℚ) = 10 ^ n := by
  rw [tenTo, Nat.pow_eq]
  push_cast
  rfl

theorem scaledLe_iff : scaledLe a p b k = true ↔ (a : ℚ) * 2 ^ p ≤ b * 10 ^ k := by
  rw [zpow_eq_div two_ne_zero, zpow_eq_div (by norm_num : (10 : ℚ) ≠ 0), ← mul_div_assoc, ← mul_div_assoc,
    div_le_div_iff₀ (by positivity) (by positivity), scaledLe, decide_eq_true_iff, ← Nat.cast_le (α := ℚ)]
  push_cast [twoTo_cast, tenTo_cast]
  rfl

theorem scaledLt_iff : scaledLt a p b k = true ↔ (a : ℚ) * 2 ^ p < b * 10 ^ k := by
  rw [zpow_eq_div two_ne_zero, zpow_eq_div (by norm_num : (10 : ℚ) ≠ 0), ← mul_div_assoc, ← mul_div_assoc,
    div_lt_div_iff₀ (by positivity) (by positivity), scaledLt, decide_eq_true_iff, ← Nat.cast_lt (α := ℚ)]
  push_cast [twoTo_cast, tenTo_cast]
  rfl

end Comparing

/-! ## The point -/

/-- The power of ten two above the guess is out of reach for all doubles, and one far below it is not. -/
theorem guess_bounds : ∀ i ∈ List.range 2098, let guess := (i - 1074 : Int) * 30103 / 100000
    scaledLe 1 (i - 1074 + 1) 1 (guess + 2) = true ∧ scaledLt 1 (i - 1074) 1 (guess - 16) = false := by
  decide +kernel

/-- **A double is below the power of ten that its point stands for.** -/
theorem lt_pointPosition (hm : 0 < m) (hlt : m < 2 ^ 53) (hlow : -1074 ≤ q) (hhigh : q ≤ 971) :
    (m : ℚ) * 2 ^ q < 10 ^ pointPosition m q := by
  have hone : ∀ k : Int, scaledLt m q 1 k = true → (m : ℚ) * 2 ^ q < 10 ^ k := fun k h => by
    simpa using scaledLt_iff.mp h
  unfold pointPosition
  dsimp only
  split
  · exact hone _ ‹_›
  · split
    · exact hone _ ‹_›
    · have hlog : m.log2 < 53 := (Nat.log2_lt (Nat.ne_of_gt hm)).mpr hlt
      have hguess := (guess_bounds (m.log2 + q + 1074).toNat (List.mem_range.mpr (by omega))).1
      rw [Int.toNat_of_nonneg (by omega), Int.add_sub_cancel, scaledLe_iff, Nat.cast_one, one_mul, one_mul] at hguess
      refine lt_of_lt_of_le ?_ hguess
      have hm' : (m : ℚ) < 2 ^ (m.log2 + 1) := by exact_mod_cast Nat.lt_log2_self
      calc (m : ℚ) * 2 ^ q
        _ < 2 ^ (m.log2 + 1) * 2 ^ q := by gcongr
        _ = 2 ^ ((m.log2 : Int) + q + 1) := by
          rw [← zpow_natCast, ← zpow_add₀ two_ne_zero]
          congr 1
          omega

theorem pointPosition_le_guess (m : Nat) (q : Int) :
    pointPosition m q ≤ ((m.log2 : Int) + q) * 30103 / 100000 + 2 := by
  unfold pointPosition
  dsimp only
  split
  · omega
  · split <;> omega

theorem pointPosition_le (hm : 0 < m) (hlt : m < 2 ^ 53) (hhigh : q ≤ 971) : pointPosition m q ≤ 309 := by
  have hlog : m.log2 < 53 := (Nat.log2_lt (Nat.ne_of_gt hm)).mpr hlt
  have hguess := pointPosition_le_guess m q
  omega

/-- The finest grid of a search is finer than the double. -/
theorem finest_pointPosition_le (hm : 0 < m) (hlt : m < 2 ^ 53) (hlow : -1074 ≤ q) (hhigh : q ≤ 971) :
    (10 : ℚ) ^ (pointPosition m q - 18) ≤ m * 2 ^ q := by
  have hlog : m.log2 < 53 := (Nat.log2_lt (Nat.ne_of_gt hm)).mpr hlt
  have hpoint := pointPosition_le_guess m q
  have hguess := (guess_bounds (m.log2 + q + 1074).toNat (List.mem_range.mpr (by omega))).2
  rw [Int.toNat_of_nonneg (by omega), Int.add_sub_cancel, ← Bool.not_eq_true, scaledLt_iff, not_lt, Nat.cast_one,
    one_mul, one_mul] at hguess
  have hm' : ((2 ^ m.log2 : Nat) : ℚ) ≤ m := by exact_mod_cast Nat.log2_self_le (Nat.ne_of_gt hm)
  push_cast at hm'
  calc (10 : ℚ) ^ (pointPosition m q - 18)
    _ ≤ 10 ^ (((m.log2 : Int) + q) * 30103 / 100000 - 16) := zpow_le_zpow_right₀ (by norm_num) (by omega)
    _ ≤ 2 ^ ((m.log2 : Int) + q) := hguess
    _ = 2 ^ m.log2 * 2 ^ q := by rw [zpow_add₀ two_ne_zero, zpow_natCast]
    _ ≤ m * 2 ^ q := by gcongr

/-! ## Grids -/

theorem roundDiv_cases (tie : Tie) (num den : Nat) :
    roundDiv tie num den = num / den ∨ roundDiv tie num den = num / den + 1 := by
  unfold roundDiv
  dsimp only
  split
  · exact .inl rfl
  · split
    · exact .inr rfl
    · cases tie with
      | toEven => exact ite_eq_or_eq _ _ _
      | up => exact .inr rfl

/-- The last multiple of a power of ten that is no greater than the double. -/
theorem below_le (m : Nat) (q k : Int) :
    ((m * twoTo q.toNat * tenTo (-k).toNat / (tenTo k.toNat * twoTo (-q).toNat) : Nat) : ℚ) * 10 ^ k ≤
      m * 2 ^ q := by
  rw [← not_lt, ← scaledLt_iff, scaledLt, decide_eq_true_iff, Nat.not_lt, Nat.mul_assoc]
  exact Nat.div_mul_le_self _ _

/-- An upper end of the reals that round to a double. -/
def upperEnd (m : Nat) (q : Int) : ℚ := (4 * m + 2 : Nat) * 2 ^ (q - 2)

theorem le_upperEnd_of_holds {d : Nat} {k : Int} (h : (roundingInterval m q).holds q d k = true) :
    (d : ℚ) * 10 ^ k ≤ upperEnd m q := by
  have hend : (roundingInterval m q).high = 4 * m + 2 := rfl
  unfold Interval.holds at h
  split at h
  · rw [Bool.and_eq_true, Bool.not_eq_true', ← Bool.not_eq_true, scaledLt_iff, not_lt, hend] at h
    exact h.2
  · rw [Bool.and_eq_true, Bool.not_eq_true', ← Bool.not_eq_true, scaledLe_iff, not_le, hend] at h
    exact le_of_lt h.2

/-- No double but zero rounds to zero. -/
theorem pos_of_holds {d : Nat} {k : Int} (hm : 0 < m) (h : (roundingInterval m q).holds q d k = true) : 0 < d := by
  have hlow : 0 < (roundingInterval m q).low := by
    unfold roundingInterval
    dsimp only
    split <;> omega
  have hleft : ((roundingInterval m q).low : ℚ) * 2 ^ (q - 2) ≤ d * 10 ^ k := by
    unfold Interval.holds at h
    split at h
    · exact scaledLe_iff.mp (Bool.and_eq_true_iff.mp h).1
    · exact le_of_lt (scaledLt_iff.mp (Bool.and_eq_true_iff.mp h).1)
  have hpos : (0 : ℚ) < d * 10 ^ k := lt_of_lt_of_le (by positivity) hleft
  refine Nat.pos_of_ne_zero fun hzero => ?_
  rw [hzero, Nat.cast_zero, zero_mul] at hpos
  exact lt_irrefl _ hpos

theorem lt_below_succ (m : Nat) (q k : Int) :
    m * 2 ^ q <
      ((m * twoTo q.toNat * tenTo (-k).toNat / (tenTo k.toNat * twoTo (-q).toNat) + 1 : Nat) : ℚ) * 10 ^ k := by
  rw [← scaledLt_iff, scaledLt, decide_eq_true_iff, Nat.mul_assoc _ (tenTo k.toNat)]
  refine Nat.lt_of_lt_of_eq (Nat.lt_div_mul_add ?_) (Nat.succ_mul _ _).symm
  exact Nat.mul_pos (Nat.pow_pos (by decide)) (Nat.pow_pos (by decide))

/-- A decimal near a double: at most one step of its grid away, and the grid is not too fine. It is among the reals that
round to the double, unless its grid is the finest. -/
structure NearGrid (m : Nat) (q finest : Int) (d : Decimal) : Prop where
  finest_le : finest ≤ d.exponent
  le : ((d.digits : ℚ) - 1) * 10 ^ d.exponent ≤ m * 2 ^ q
  lt : (m : ℚ) * 2 ^ q < (d.digits + 1) * 10 ^ d.exponent
  rounds : (0 < d.digits ∧ d.toRat ≤ upperEnd m q) ∨ d.exponent = finest

theorem nearGrid_of_eq {k finest : Int} {d : Nat} (hk : finest ≤ k)
    (hd : let below := m * twoTo q.toNat * tenTo (-k).toNat / (tenTo k.toNat * twoTo (-q).toNat)
      d = below ∨ d = below + 1)
    (h : (0 < d ∧ d * 10 ^ k ≤ upperEnd m q) ∨ k = finest) : NearGrid m q finest ⟨d, k⟩ := by
  have hbelow := below_le m q k
  have habove := lt_below_succ m q k
  dsimp only at hd
  generalize m * twoTo q.toNat * tenTo (-k).toNat / (tenTo k.toNat * twoTo (-q).toNat) = below at hbelow habove hd
  refine ⟨hk, le_trans (mul_le_mul_of_nonneg_right ?_ (by positivity)) hbelow,
    lt_of_lt_of_le habove (mul_le_mul_of_nonneg_right ?_ (by positivity)), h⟩
  · rcases hd with rfl | rfl
    · linarith
    · push_cast
      linarith
  · rcases hd with rfl | rfl
    · push_cast
      exact le_refl _
    · push_cast
      linarith

theorem gridHit_near {tie : Tie} {k finest : Int} {d : Nat} (hm : 0 < m) (h : gridHit tie m q k = some d)
    (hk : finest ≤ k) : NearGrid m q finest ⟨d, k⟩ := by
  have hholds {n : Nat} (h : (roundingInterval m q).holds q n k = true) :
      (0 < n ∧ (n : ℚ) * 10 ^ k ≤ upperEnd m q) ∨ k = finest :=
    .inl ⟨pos_of_holds hm h, le_upperEnd_of_holds h⟩
  unfold gridHit at h
  dsimp only at h
  split at h <;> cases h
  · rename_i hlow hhigh
    rcases roundDiv_cases tie (m * twoTo q.toNat * tenTo (-k).toNat) (tenTo k.toNat * twoTo (-q).toNat) with hd | hd
    · exact nearGrid_of_eq hk (.inl hd) (hholds (hd ▸ hlow))
    · exact nearGrid_of_eq hk (.inr hd) (hholds (hd ▸ hhigh))
  · rename_i hlow _
    exact nearGrid_of_eq hk (.inl rfl) (hholds hlow)
  · rename_i _ hhigh
    exact nearGrid_of_eq hk (.inr rfl) (hholds hhigh)

/-- A search through the grids, by induction on those that are left. -/
theorem searchGrids_near (tie : Tie) (hm : 0 < m) (q : Int) (fuel : Nat) (k : Int) :
    NearGrid m q (k - fuel) (searchGrids tie m q fuel k) := by
  induction fuel generalizing k with
  | zero =>
    have hk : k - (0 : Nat) = k := Int.sub_zero k
    rw [hk]
    exact nearGrid_of_eq (Int.le_refl k) (roundDiv_cases .toEven _ _) (.inr rfl)
  | succ fuel ih =>
    rw [searchGrids]
    split
    · rename_i d hd
      exact gridHit_near hm hd (by omega)
    · have h := ih (k - 1)
      rwa [show k - 1 - (fuel : Int) = k - (fuel + 1 : Nat) by omega] at h

/-! ## Zeros at the end -/

theorem dropZeros_digits_le (d : Decimal) : d.dropZeros.digits ≤ d.digits := by
  fun_induction Decimal.dropZeros d with
  | case1 d h ih => exact Nat.le_trans ih (Nat.div_le_self _ _)
  | case2 d h => exact Nat.le_refl _

theorem dropZeros_toRat (d : Decimal) : d.dropZeros.toRat = d.toRat := by
  fun_induction Decimal.dropZeros d with
  | case1 d h ih =>
    have hdigits : ((d.digits : Nat) : ℚ) = (d.digits / 10 : Nat) * 10 := by
      exact_mod_cast (Nat.div_mul_cancel (Nat.dvd_of_mod_eq_zero h.2)).symm
    rw [ih, Decimal.toRat, Decimal.toRat, hdigits, zpow_add₀ (by norm_num), zpow_one]
    ring
  | case2 d h => rfl

/-! ## The shortest decimal -/

section Shortest

variable (tie : Tie) (hm : 0 < m) (hlt : m < 2 ^ 53) (hhigh : q ≤ 971)
include hm hlt hhigh

/-- **The digits** of the shortest decimal are few, and not all of them are zero. -/
theorem shortest_digits (hlow : -1074 ≤ q) :
    0 < (shortest tie m q).digits ∧ (shortest tie m q).digits ≤ 10 ^ 18 := by
  have hnear := searchGrids_near tie hm q 17 (pointPosition m q - 1)
  have hzeros := dropZeros_digits_le (searchGrids tie m q 17 (pointPosition m q - 1))
  have hvalue := dropZeros_toRat (searchGrids tie m q 17 (pointPosition m q - 1))
  rw [shortest]
  generalize searchGrids tie m q 17 (pointPosition m q - 1) = d at hnear hzeros hvalue
  have hfinest := hnear.finest_le
  constructor
  · have hpos : 0 < d.digits := by
      rcases hnear.rounds with ⟨hpos, -⟩ | hexponent
      · exact hpos
      · have hunit := lt_of_le_of_lt (finest_pointPosition_le hm hlt hlow hhigh) hnear.lt
        rw [hexponent, show pointPosition m q - 1 - (17 : Nat) = pointPosition m q - 18 by omega] at hunit
        have hdigits : (1 : ℚ) < d.digits + 1 := by
          refine lt_of_mul_lt_mul_right (a := (10 : ℚ) ^ (pointPosition m q - 18)) ?_ (by positivity)
          rwa [one_mul]
        exact_mod_cast (lt_add_iff_pos_left 1).mp hdigits
    refine Nat.pos_of_ne_zero fun hzero => ?_
    rw [Decimal.toRat, Decimal.toRat, hzero, Nat.cast_zero, zero_mul] at hvalue
    have hne : (d.digits : ℚ) * 10 ^ d.exponent ≠ 0 := by positivity
    exact hne hvalue.symm
  · refine Nat.le_trans hzeros ?_
    have hpower : ((d.digits : ℚ) - 1) * 10 ^ d.exponent < 10 ^ (18 : Int) * 10 ^ d.exponent := by
      refine lt_of_le_of_lt hnear.le (lt_of_lt_of_le (lt_pointPosition hm hlt hlow hhigh) ?_)
      rw [← zpow_add₀ (by norm_num)]
      exact zpow_le_zpow_right₀ (by norm_num) (by omega)
    have hdigits := lt_of_mul_lt_mul_right hpower (by positivity)
    have hcast : (d.digits : ℚ) < (10 ^ 18 + 1 : Nat) := by
      push_cast
      linarith [show (10 : ℚ) ^ (18 : Int) = 10 ^ 18 from rfl]
    exact Nat.le_of_lt_succ (Nat.cast_lt.mp hcast)

/-- **The shortest decimal** stands for little more than the double. -/
theorem shortest_toRat_le : (shortest tie m q).toRat ≤ m * 2 ^ q + 2 ^ (970 : Int) := by
  have hnear := searchGrids_near tie hm q 17 (pointPosition m q - 1)
  rw [shortest, dropZeros_toRat]
  generalize searchGrids tie m q 17 (pointPosition m q - 1) = d at hnear
  rcases hnear.rounds with ⟨-, hrounds⟩ | hfinest
  · calc d.toRat
      _ ≤ upperEnd m q := hrounds
      _ = m * 2 ^ q + 2 ^ (q - 1) := by
        have hhalf : (2 : ℚ) ^ (q - 1) = 2 * 2 ^ (q - 2) := by
          rw [show q - 1 = 1 + (q - 2) by omega, zpow_add₀ two_ne_zero, zpow_one]
        have hwhole : (2 : ℚ) ^ q = 4 * 2 ^ (q - 2) := by
          rw [show (2 : ℚ) ^ q = 2 ^ (2 + (q - 2)) by congr 1; omega, zpow_add₀ two_ne_zero]
          norm_num
        rw [upperEnd, hhalf, hwhole]
        push_cast
        ring
      _ ≤ m * 2 ^ q + 2 ^ (970 : Int) := by
        have hpow : (2 : ℚ) ^ (q - 1) ≤ 2 ^ (970 : Int) := zpow_le_zpow_right₀ one_le_two (by omega)
        gcongr
  · have hpoint := pointPosition_le hm hlt hhigh
    have hunit : (10 : ℚ) ^ d.exponent ≤ 2 ^ (970 : Int) :=
      calc (10 : ℚ) ^ d.exponent
        _ ≤ 10 ^ (291 : Int) := zpow_le_zpow_right₀ (by norm_num) (by omega)
        _ = (10 ^ 3) ^ 97 := by rw [← pow_mul, zpow_ofNat]
        _ ≤ (2 ^ 10) ^ 97 := by gcongr; norm_num
        _ = 2 ^ (970 : Int) := by rw [← pow_mul, zpow_ofNat]
    have hle := hnear.le
    rw [sub_mul, one_mul] at hle
    calc d.toRat
      _ ≤ m * 2 ^ q + 10 ^ d.exponent := sub_le_iff_le_add.mp hle
      _ ≤ m * 2 ^ q + 2 ^ (970 : Int) := by gcongr

end Shortest

end Toolpath.Number
