import Toolpath.Proofs.Number.Grains

/-!
# Rounding

In grains, sums and differences are exact integers. A double that is the rounded value of an integer
lies on the same side of every finite double as the integer does. This is all that is needed of rounding
here: that ties go to even digits is left open.

* `Near`, `round_near`: what rounding does to the digits.
* `RoundsTo`, `roundsTo_add`, `roundsTo_sub`: sums and differences before they are stored.
* `Rounded`, `rounded_add`, `rounded_sub`: sums and differences of doubles.
* `Rounded.between`, `Rounded.sign`: bounds and signs survive.
-/

namespace Toolpath.Number

open Float.Model (UnpackedFloat Format)

open Float.Model.UnpackedFloat

/-! ## Shifting -/

section Shifting

variable {m j k : Nat}

theorem mantissa_shiftRight (em : ExtendedMantissa) (n : Nat) :
    (em >>> n).mantissa = em.mantissa / 2 ^ n := by
  change (n.repeat ExtendedMantissa.shiftRightOne em).mantissa = _
  induction n with
  | zero => exact (Nat.div_one _).symm
  | succ n ih =>
    change _ / 2 = _
    rw [ih, Nat.div_div_eq_div_mul, Nat.pow_succ]

/-- Digits that are all zero leave no trace when they are dropped. -/
theorem shiftRight_exact {m n : Nat} (h : 2 ^ n ∣ m) :
    (⟨m, false, false⟩ : ExtendedMantissa) >>> n = ⟨m / 2 ^ n, false, false⟩ := by
  change n.repeat ExtendedMantissa.shiftRightOne _ = _
  induction n with
  | zero => rw [Nat.pow_zero, Nat.div_one]; rfl
  | succ n ih =>
    obtain ⟨q, rfl⟩ := h
    have hq : 2 ^ (n + 1) * q / 2 ^ n = 2 * q := by
      rw [Nat.pow_succ, Nat.mul_assoc, Nat.mul_div_cancel_left _ (Nat.two_pow_pos n)]
    have hdvd : 2 ^ n ∣ 2 ^ (n + 1) * q := ⟨2 * q, by rw [Nat.pow_succ, Nat.mul_assoc]⟩
    rw [Nat.repeat, ih hdvd, hq, Nat.mul_div_cancel_left _ (Nat.two_pow_pos _)]
    simp [ExtendedMantissa.shiftRightOne]

theorem roundedMantissa_bounds (em : ExtendedMantissa) :
    em.mantissa ≤ em.roundedMantissa ∧ em.roundedMantissa ≤ em.mantissa + 1 := by
  obtain ⟨m, r, s⟩ := em
  unfold ExtendedMantissa.roundedMantissa ExtendedMantissa.accuracy Accuracy.roundToNearestEven
  cases r <;> cases s <;> dsimp only <;> omega

/-- The place at which a number is cut to 53 digits. -/
def place (n : Nat) : Nat := n.log2 - 52

/-- Digits from a lower place on. -/
theorem mul_pow_split (c : Nat) (h : k ≤ j) : c * 2 ^ (j - k) * 2 ^ k = c * 2 ^ j := by
  rw [Nat.mul_assoc, ← Nat.pow_add, Nat.sub_add_cancel h]

theorem log2_mul_pow (hm : 0 < m) (j : Nat) : (m * 2 ^ j).log2 = m.log2 + j := by
  have hpos : 0 < 2 ^ j := Nat.two_pow_pos j
  rw [Nat.log2_eq_iff (Nat.ne_of_gt (Nat.mul_pos hm hpos)), Nat.add_right_comm, Nat.pow_add, Nat.pow_add]
  constructor
  · exact Nat.mul_le_mul_right _ (Nat.log2_self_le (Nat.ne_of_gt hm))
  · exact Nat.mul_lt_mul_of_pos_right Nat.lt_log2_self hpos

theorem targetExponent_eq (hm : 0 < m) :
    Format.binary64.targetExponent (Float.Model.totalExponent m (j - 1074)) =
      place (m * 2 ^ j) - 1074 := by
  have hbits : Format.binary64.mantissaBits = 53 := rfl
  have hmin : Format.binary64.minExponent = -1074 := rfl
  unfold Format.targetExponent Float.Model.totalExponent place
  rw [hbits, hmin, log2_mul_pow hm]
  omega

theorem shiftToTargetExponent_eq (hm : 0 < m) :
    shiftToTargetExponent .binary64 m (j - 1074) .exact =
      ((⟨m, false, false⟩ : ExtendedMantissa) >>> (place (m * 2 ^ j) - j),
        ((max j (place (m * 2 ^ j)) : Nat) : Int) - 1074) := by
  unfold shiftToTargetExponent shiftToExponent
  dsimp only
  rw [targetExponent_eq hm]
  have hamount : (place (m * 2 ^ j) - 1074 - (j - 1074) : Int).toNat = place (m * 2 ^ j) - j := by omega
  rw [hamount]
  refine Prod.ext rfl ?_
  dsimp only
  omega

/-- The digits of a number at its place, rounded up or down. -/
structure Near (n r : Nat) : Prop where
  le : n / 2 ^ place n ≤ r
  le_succ : r ≤ n / 2 ^ place n + 1
  exact : 2 ^ place n ∣ n → r = n / 2 ^ place n

theorem near_shiftRight (hj : j ≤ place (m * 2 ^ j)) :
    Near (m * 2 ^ j)
      ((⟨m, false, false⟩ : ExtendedMantissa) >>> (place (m * 2 ^ j) - j)).roundedMantissa := by
  generalize hk : place (m * 2 ^ j) = k at hj
  have hsplit : 2 ^ k = 2 ^ (k - j) * 2 ^ j := by
    rw [← Nat.pow_add, Nat.sub_add_cancel hj]
  have hdiv : m * 2 ^ j / 2 ^ k = m / 2 ^ (k - j) := by
    rw [hsplit, Nat.mul_div_mul_right _ _ (Nat.two_pow_pos j)]
  have hbounds := roundedMantissa_bounds ((⟨m, false, false⟩ : ExtendedMantissa) >>> (k - j))
  rw [mantissa_shiftRight, ← hdiv] at hbounds
  refine ⟨hk ▸ hbounds.1, hk ▸ hbounds.2, fun hdvd => ?_⟩
  rw [hk, hsplit] at hdvd
  rw [hk, hdiv, shiftRight_exact (Nat.dvd_of_mul_dvd_mul_right (Nat.two_pow_pos j) hdvd)]
  rfl

section Near

variable {n r c g : Nat}

theorem pow_le_of_place_pos (hn : 0 < n) (hk : 0 < place n) : 2 ^ 52 * 2 ^ place n ≤ n := by
  unfold place at hk ⊢
  rw [← Nat.pow_add, show 52 + (n.log2 - 52) = n.log2 by omega]
  exact Nat.log2_self_le (Nat.ne_of_gt hn)

/-- Rounding fills all the digits, except at the lowest place. -/
theorem Near.canonical (h : Near n r) (hn : 0 < n) : place n = 0 ∨ 2 ^ 52 ≤ r := by
  by_cases hk : place n = 0
  · exact .inl hk
  · have hpow := pow_le_of_place_pos hn (by omega)
    exact .inr (Nat.le_trans ((Nat.le_div_iff_mul_le (Nat.two_pow_pos _)).mpr hpow) h.le)

theorem Near.pos (h : Near n r) (hn : 0 < n) : 0 < r := by
  rcases h.canonical hn with hk | hr
  · have hle := h.le
    rw [hk, Nat.pow_zero, Nat.div_one] at hle
    omega
  · omega

theorem Near.le_pow (h : Near n r) : r ≤ 2 ^ 53 := by
  have hlt : n / 2 ^ place n < 2 ^ 53 := by
    rw [Nat.div_lt_iff_lt_mul (Nat.two_pow_pos _), ← Nat.pow_add]
    refine Nat.lt_of_lt_of_le Nat.lt_log2_self (Nat.pow_le_pow_right (by decide) ?_)
    unfold place
    omega
  exact Nat.le_trans h.le_succ hlt

/-- Rounding does not leave the upper side of a number with 53 digits. -/
theorem Near.le_digits (h : Near n r) (hn : 0 < n) (hc : c < 2 ^ 53) (hle : c * 2 ^ g ≤ n) :
    c * 2 ^ g ≤ r * 2 ^ place n := by
  by_cases hg : place n ≤ g
  · rw [← mul_pow_split c hg] at hle ⊢
    refine Nat.mul_le_mul_right _ (Nat.le_trans ?_ h.le)
    exact (Nat.le_div_iff_mul_le (Nat.two_pow_pos _)).mpr hle
  · have hr := (h.canonical hn).resolve_left (by omega)
    exact Nat.le_of_lt (digits_lt hc hr (by omega))

/-- Rounding does not leave the lower side of a number with 53 digits. -/
theorem Near.digits_le (h : Near n r) (hn : 0 < n) (hc : c < 2 ^ 53) (hle : n ≤ c * 2 ^ g) :
    r * 2 ^ place n ≤ c * 2 ^ g := by
  by_cases hg : place n ≤ g
  · rw [← mul_pow_split c hg] at hle ⊢
    refine Nat.mul_le_mul_right _ ?_
    generalize c * 2 ^ (g - place n) = d at hle ⊢
    have hdiv : n / 2 ^ place n ≤ d := by
      rw [← Nat.mul_div_cancel d (Nat.two_pow_pos (place n))]
      exact Nat.div_le_div_right hle
    by_cases heq : n / 2 ^ place n = d
    · -- nothing was dropped, so nothing is rounded
      have hle' : n / 2 ^ place n * 2 ^ place n ≤ n := Nat.div_mul_le_self n (2 ^ place n)
      rw [heq] at hle'
      have hdvd : 2 ^ place n ∣ n := ⟨d, by rw [Nat.mul_comm]; omega⟩
      rw [h.exact hdvd]
      exact hdiv
    · have hsucc := h.le_succ
      omega
  · have hpow := pow_le_of_place_pos hn (by omega)
    have hlt := digits_lt hc (Nat.le_refl _) (show g < place n by omega)
    omega

end Near

/-- The last step of rounding. A carry may have made one digit too many, all but the first of which are
zero then. -/
theorem canonical_carry (s : Sign) (hm : 0 < m) (hle : m ≤ 2 ^ 53) (hk : k = 0 ∨ 2 ^ 52 ≤ m) :
    ∃ (m' k' : Nat) (hm' : 0 < m'),
      (let p := shiftToTargetExponent .binary64 m (k - 1074) .exact
       if h : p.1.mantissa = 0 then UnpackedFloat.zero s
       else .finite s p.1.mantissa p.2 (Nat.pos_of_ne_zero h)) = .finite s m' (k' - 1074) hm' ∧
      m' * 2 ^ k' = m * 2 ^ k ∧ m' < 2 ^ 53 ∧ (k' = 0 ∨ 2 ^ 52 ≤ m') := by
  have hplace : place (m * 2 ^ k) = m.log2 + k - 52 := congrArg (· - 52) (log2_mul_pow hm k)
  rw [shiftToTargetExponent_eq hm, hplace]
  dsimp only
  rcases Nat.lt_or_eq_of_le hle with hlt | rfl
  · have hlog : m.log2 < 53 := (Nat.log2_lt (Nat.ne_of_gt hm)).mpr hlt
    rw [show m.log2 + k - 52 - k = 0 by omega, show max k (m.log2 + k - 52) = k by omega]
    exact ⟨m, k, hm, dif_neg (Nat.ne_of_gt hm), rfl, hlt, hk⟩
  · rw [Nat.log2_two_pow, show 53 + k - 52 - k = 1 by omega, show max k (53 + k - 52) = k + 1 by omega]
    refine ⟨2 ^ 52, k + 1, by decide, rfl, ?_, by decide, .inr (Nat.le_refl _)⟩
    rw [← Nat.pow_add, ← Nat.pow_add, Nat.add_comm k, ← Nat.add_assoc]

theorem roundWithAccuracy_near (s : Sign) (hm : 0 < m) (hj : j ≤ place (m * 2 ^ j)) :
    ∃ r, Near (m * 2 ^ j) r ∧ Canonical (roundWithAccuracy .binary64 s m (j - 1074) .exact) ∧
      grainsOf (roundWithAccuracy .binary64 s m (j - 1074) .exact) =
        s.apply (r * 2 ^ place (m * 2 ^ j) : Nat) := by
  have hn : 0 < m * 2 ^ j := Nat.mul_pos hm (Nat.two_pow_pos j)
  have hnear := near_shiftRight hj
  obtain ⟨m', k', hm', heq, hval, hlt, hk⟩ :=
    canonical_carry s (hnear.pos hn) hnear.le_pow (hnear.canonical hn)
  have hround : roundWithAccuracy .binary64 s m (j - 1074) .exact = .finite s m' (k' - 1074) hm' := by
    unfold roundWithAccuracy
    rw [shiftToTargetExponent_eq hm, Nat.max_eq_right hj]
    exact heq
  refine ⟨_, hnear, ?_⟩
  rw [hround, grainsOf_finite, hval]
  exact ⟨.finite s hm' hlt hk, rfl⟩

theorem decreaseExponent_eq (m j k : Nat) :
    decreaseExponent m (j - 1074) (k - 1074) = (m * 2 ^ (j - k), ((min j k : Nat) : Int) - 1074) := by
  unfold decreaseExponent
  dsimp only
  rw [Nat.shiftLeft_eq, show (j - 1074 - (k - 1074) : Int).toNat = j - k by omega]
  refine Prod.ext rfl ?_
  dsimp only
  omega

/-- What rounding does to the digits. -/
theorem round_near (s : Sign) (hm : 0 < m) (j : Nat) : ∃ r, Near (m * 2 ^ j) r ∧
    Canonical (UnpackedFloat.round .binary64 s m (j - 1074)) ∧
    grainsOf (UnpackedFloat.round .binary64 s m (j - 1074)) = s.apply (r * 2 ^ place (m * 2 ^ j) : Nat) := by
  unfold UnpackedFloat.round
  dsimp only
  rw [targetExponent_eq hm, decreaseExponent_eq]
  dsimp only
  generalize hk : place (m * 2 ^ j) = k
  have hsame : m * 2 ^ (j - k) * 2 ^ min j k = m * 2 ^ j := by
    rw [show j - k = j - min j k by omega, mul_pow_split m (Nat.min_le_left j k)]
  have hnear := roundWithAccuracy_near s (m := m * 2 ^ (j - k)) (j := min j k)
    (Nat.mul_pos hm (Nat.two_pow_pos _)) (by rw [hsame, hk]; exact Nat.min_le_right j k)
  rwa [hsame, hk] at hnear

end Shifting

/-! ## Signed numbers -/

section Signed

variable {n : Int} {u v : UnpackedFloat}

/-- A stored number that rounds an integer: no stored number lies between the two. -/
structure RoundsTo (n : Int) (u : UnpackedFloat) : Prop where
  canonical : Canonical u
  le : ∀ v, Canonical v → n ≤ grainsOf v → grainsOf u ≤ grainsOf v
  ge : ∀ v, Canonical v → grainsOf v ≤ n → grainsOf v ≤ grainsOf u

theorem Canonical.roundsTo (h : Canonical u) : RoundsTo (grainsOf u) u where
  canonical := h
  le _ _ := id
  ge _ _ := id

theorem Canonical.neg (h : Canonical u) : Canonical u.neg := by
  cases h with
  | zero s => exact .zero _
  | finite s hm hlt hk => exact .finite _ hm hlt hk

theorem grainsOf_neg (u : UnpackedFloat) : grainsOf u.neg = -grainsOf u := by
  cases u with
  | finite s m e hm =>
    cases s with
    | negative => exact (Int.neg_neg _).symm
    | positive => rfl
  | _ => rfl

theorem RoundsTo.neg (h : RoundsTo n u) : RoundsTo (-n) u.neg where
  canonical := h.canonical.neg
  le v hv hle := by
    have hge := h.ge v.neg hv.neg
    rw [grainsOf_neg] at hge ⊢
    omega
  ge v hv hle := by
    have hge := h.le v.neg hv.neg
    rw [grainsOf_neg] at hge ⊢
    omega

theorem round_negative (m : Nat) (e : Int) :
    UnpackedFloat.round .binary64 .negative m e = (UnpackedFloat.round .binary64 .positive m e).neg := by
  unfold UnpackedFloat.round roundWithAccuracy
  dsimp only
  split <;> rfl

theorem Canonical.nonpos_or_digits (h : Canonical u) :
    grainsOf u ≤ 0 ∨ ∃ c g : Nat, c < 2 ^ 53 ∧ grainsOf u = (c * 2 ^ g : Nat) := by
  cases h with
  | zero s => exact .inl (Int.le_refl _)
  | @finite s m k hm hlt hk =>
    cases s with
    | negative => exact .inl (Int.le_of_lt (grainsOf_negative hm))
    | positive => exact .inr ⟨m, k, hlt, grainsOf_finite .positive hm⟩

/-- Digits that are rounded up or down at their place round the number. -/
theorem Near.roundsTo {m r : Nat} (hr : Near m r) (hm : 0 < m) (hc : Canonical u)
    (hval : grainsOf u = (r * 2 ^ place m : Nat)) : RoundsTo m u := by
  refine ⟨hc, fun v hv hle => ?_, fun v hv hle => ?_⟩
  · rcases hv.nonpos_or_digits with hv | ⟨c, g, hlt, hv⟩
    · omega
    · rw [hv] at hle ⊢
      rw [hval]
      exact Int.ofNat_le.mpr (hr.digits_le hm hlt (Int.ofNat_le.mp hle))
  · rcases hv.nonpos_or_digits with hv | ⟨c, g, hlt, hv⟩
    · omega
    · rw [hv] at hle ⊢
      rw [hval]
      exact Int.ofNat_le.mpr (hr.le_digits hm hlt (Int.ofNat_le.mp hle))

theorem roundsTo_round {m : Nat} (hm : 0 < m) (j : Nat) :
    RoundsTo (m * 2 ^ j : Nat) (UnpackedFloat.round .binary64 .positive m (j - 1074)) := by
  obtain ⟨r, hr, hc, hval⟩ := round_near .positive hm j
  exact hr.roundsTo (Nat.mul_pos hm (Nat.two_pow_pos j)) hc hval

/-- A product or a quotient is rounded without more digits, of which there are enough. -/
theorem roundsTo_roundWithAccuracy {m j : Nat} (hm : 0 < m) (hj : j ≤ place (m * 2 ^ j)) :
    RoundsTo (m * 2 ^ j : Nat) (roundWithAccuracy .binary64 .positive m (j - 1074) .exact) := by
  obtain ⟨r, hr, hc, hval⟩ := roundWithAccuracy_near .positive hm hj
  exact hr.roundsTo (Nat.mul_pos hm (Nat.two_pow_pos j)) hc hval

theorem roundsTo_zero (s : Sign) : RoundsTo 0 (.zero s) := (Canonical.zero s).roundsTo

theorem roundsTo_normalize (n : Int) (j : Nat) (zeroSign : Sign) :
    RoundsTo (n * 2 ^ j) (UnpackedFloat.normalize .binary64 n (j - 1074) zeroSign) := by
  have hcast : ∀ m : Nat, ((m * 2 ^ j : Nat) : Int) = m * 2 ^ j := fun m => by
    rw [Int.natCast_mul, Int.natCast_pow]
    rfl
  unfold UnpackedFloat.normalize
  split
  · rename_i h
    have hneg : n < 0 := Int.compare_eq_lt.mp h
    have hround := (roundsTo_round (m := (-n).toNat) (by omega) j).neg
    rwa [← round_negative, hcast, ← Int.neg_mul, Int.toNat_of_nonneg (by omega), Int.neg_neg] at hround
  · rename_i h
    obtain rfl : n = 0 := Int.compare_eq_eq.mp h
    rw [Int.zero_mul]
    exact roundsTo_zero zeroSign
  · rename_i h
    have hpos : 0 < n := Int.compare_eq_gt.mp h
    have hround := roundsTo_round (m := n.toNat) (by omega) j
    rwa [hcast, Int.toNat_of_nonneg (by omega)] at hround

/-- The same value with its digits from a lower place on. -/
theorem apply_aligned (s : Sign) (m : Nat) {i j : Nat} (h : i ≤ j) :
    s.apply (m * 2 ^ (j - i) : Nat) * 2 ^ i = s.apply (m * 2 ^ j : Nat) := by
  have hvalue : ((m * 2 ^ (j - i) : Nat) : Int) * 2 ^ i = (m * 2 ^ j : Nat) := by
    rw [← mul_pow_split m h, Int.natCast_mul _ (2 ^ i), Int.natCast_pow]
    rfl
  cases s with
  | negative =>
    unfold Sign.apply
    rw [Int.neg_mul, hvalue]
  | positive => exact hvalue

theorem min_places (j k : Nat) : min (j - 1074 : Int) (k - 1074) = ((min j k : Nat) : Int) - 1074 := by
  omega

/-- The sum of two stored numbers is rounded once. -/
theorem roundsTo_add (hu : Canonical u) (hv : Canonical v) :
    RoundsTo (grainsOf u + grainsOf v) (add .binary64 u v) := by
  cases hu with
  | zero s =>
    rw [grainsOf_zero, Int.zero_add]
    cases hv with
    | zero t => cases s <;> cases t <;> exact roundsTo_zero _
    | finite t hn hlt hk => exact (Canonical.finite t hn hlt hk).roundsTo
  | @finite s m j hm hlt hj =>
    cases hv with
    | zero t =>
      rw [grainsOf_zero, Int.add_zero]
      exact (Canonical.finite s hm hlt hj).roundsTo
    | @finite t n k hn hnlt hk =>
      unfold add
      dsimp only
      rw [min_places, decreaseExponent_eq, decreaseExponent_eq, grainsOf_finite, grainsOf_finite,
        ← apply_aligned s m (Nat.min_le_left j k), ← apply_aligned t n (Nat.min_le_right j k),
        ← Int.add_mul]
      exact roundsTo_normalize _ _ _

theorem unpackedSub_eq_add_neg (u v : UnpackedFloat) : sub .binary64 u v = add .binary64 u v.neg := by
  cases u with
  | finite s m e hm =>
    cases v with
    | finite t n k hn =>
      unfold sub add UnpackedFloat.neg
      dsimp only
      have hneg : ∀ a : Int, (-t).apply a = -t.apply a := fun a => by
        cases t with
        | negative => exact (Int.neg_neg a).symm
        | positive => rfl
      rw [hneg, Int.sub_eq_add_neg]
    | _ => rfl
  | _ => cases v <;> rfl

/-- The difference of two stored numbers is rounded once. -/
theorem roundsTo_sub (hu : Canonical u) (hv : Canonical v) :
    RoundsTo (grainsOf u - grainsOf v) (sub .binary64 u v) := by
  rw [unpackedSub_eq_add_neg, Int.sub_eq_add_neg, ← grainsOf_neg]
  exact roundsTo_add hu hv.neg

end Signed

/-! ## Doubles -/

section Doubles

variable {x y z low high : Float} {n : Int}

/-- A double that rounds an integer: it is on the same side of every finite double. -/
structure Rounded (n : Int) (x : Float) : Prop where
  le : ∀ z : Float, z.isFinite = true → n ≤ grains z → x ≤ z
  ge : ∀ z : Float, z.isFinite = true → grains z ≤ n → z ≤ x

theorem negative_infinity_le {v : UnpackedFloat} (h : v.isFinite = true) :
    (UnpackedFloat.infinity .negative).le v = true := by
  cases v with
  | notANumber | infinity => cases h
  | zero | finite => rfl

theorem le_positive_infinity {v : UnpackedFloat} (h : v.isFinite = true) :
    v.le (.infinity .positive) = true := by
  cases v with
  | notANumber | infinity => cases h
  | zero | finite => rfl

/-- Beyond the greatest double there is an infinity, on the side where all finite doubles are. -/
theorem RoundsTo.rounded_of_overflow {s : Sign} {m k : Nat} {hm : 0 < m}
    (h : RoundsTo n (.finite s m (k - 1074) hm)) (hlow : 2 ^ 52 ≤ m) (hk : 2046 ≤ k)
    (hx : x.toModel.unpack = .infinity s) : Rounded n x := by
  obtain ⟨-, hle, hge⟩ := h
  rw [grainsOf_finite] at hle hge
  cases s with
  | negative =>
    refine ⟨fun z hz _ => le_iff.mpr (hx ▸ negative_infinity_le hz), fun z hz hn => ?_⟩
    have hz' : grains z ≤ -((m * 2 ^ k : Nat) : Int) := hge _ (stored_of_isFinite hz).canonical hn
    have hlt : (grains z).natAbs < m * 2 ^ k := (stored_of_isFinite hz).natAbs_lt hlow hk
    omega
  | positive =>
    refine ⟨fun z hz hn => ?_, fun z hz _ => le_iff.mpr (hx ▸ le_positive_infinity hz)⟩
    have hz' : ((m * 2 ^ k : Nat) : Int) ≤ grains z := hle _ (stored_of_isFinite hz).canonical hn
    have hlt : (grains z).natAbs < m * 2 ^ k := (stored_of_isFinite hz).natAbs_lt hlow hk
    omega

/-- Storing a rounded number keeps it rounded. -/
theorem RoundsTo.rounded {u : UnpackedFloat} (h : RoundsTo n u)
    (hx : x.toModel.unpack = unpack .binary64 (pack .binary64 u)) : Rounded n x := by
  by_cases hf : Fits u
  · rw [unpack_pack ⟨h.canonical, hf⟩] at hx
    refine ⟨fun z hz hn => ?_, fun z hz hn => ?_⟩
    · have hc := (stored_of_isFinite hz).canonical
      rw [le_iff, hx, le_canonical h.canonical hc]
      exact h.le _ hc hn
    · have hc := (stored_of_isFinite hz).canonical
      rw [le_iff, hx, le_canonical hc h.canonical]
      exact h.ge _ hc hn
  · have hc := h.canonical
    cases hc with
    | zero s => exact absurd trivial hf
    | @finite s m k hm hlt hk =>
      have hk' : 2046 ≤ k := by
        change ¬ (k - 1074 : Int) < 972 at hf
        omega
      rw [unpack_pack_overflow s hm (by omega)] at hx
      exact h.rounded_of_overflow (hk.resolve_left (by omega)) hk' hx

theorem rounded_add (hx : x.isFinite = true) (hy : y.isFinite = true) :
    Rounded (grains x + grains y) (x + y) :=
  (roundsTo_add (stored_of_isFinite hx).canonical (stored_of_isFinite hy).canonical).rounded rfl

theorem rounded_sub (hx : x.isFinite = true) (hy : y.isFinite = true) :
    Rounded (grains x - grains y) (x - y) :=
  (roundsTo_sub (stored_of_isFinite hx).canonical (stored_of_isFinite hy).canonical).rounded rfl

theorem Rounded.grains_le (h : Rounded n x) (hx : x.isFinite = true) (hz : z.isFinite = true)
    (hn : n ≤ grains z) : grains x ≤ grains z :=
  (le_iff_grains hx hz).mp (h.le z hz hn)

theorem Rounded.le_grains (h : Rounded n x) (hx : x.isFinite = true) (hz : z.isFinite = true)
    (hn : grains z ≤ n) : grains z ≤ grains x :=
  (le_iff_grains hz hx).mp (h.ge z hz hn)

/-- A result between two finite doubles is finite, and rounding takes it beyond neither. -/
theorem Rounded.between (h : Rounded n x) (hlow : low.isFinite = true) (hhigh : high.isFinite = true)
    (hl : grains low ≤ n) (hh : n ≤ grains high) :
    x.isFinite = true ∧ grains low ≤ grains x ∧ grains x ≤ grains high := by
  have hx := isFinite_of_le_of_le hlow hhigh (h.ge low hlow hl) (h.le high hhigh hh)
  exact ⟨hx, h.le_grains hx hlow hl, h.grains_le hx hhigh hh⟩

/-- No result but zero is rounded to zero, and none changes its sign: a grain is a double. -/
theorem Rounded.sign (h : Rounded n x) (hx : x.isFinite = true) :
    (grains x < 0 ↔ n < 0) ∧ (0 < grains x ↔ 0 < n) := by
  have hgrain : (5e-324 : Float).isFinite = true ∧ grains 5e-324 = 1 := by decide +kernel
  have hgrain' : (-5e-324 : Float).isFinite = true ∧ grains (-5e-324) = -1 := by decide +kernel
  have hle := h.grains_le hx isFinite_zero
  have hge := h.le_grains hx isFinite_zero
  have hneg := h.grains_le hx hgrain'.1
  have hpos := h.le_grains hx hgrain.1
  rw [grains_zero] at hle hge
  rw [hgrain.2] at hpos
  rw [hgrain'.2] at hneg
  omega

end Doubles

end Toolpath.Number
