import Toolpath.Number.Hypot

/-!
# Finite doubles

A double is finite, infinite or no number. What is known of the result of an operation is known of what
it works on, up to the rounding: a result that is finite comes from finite numbers only, and finite
numbers may overflow but never give what is no number.

* `isFinite_pack`, `isNaN_pack`: what rounding to a double keeps.
* `isFinite_of_sub`: a difference is finite only if both its sides are.
* `isNaN_add`, `isNaN_sub`: a finite number changes no number into what is none.
* `isFinite_iff_shape`: the parts of a double tell whether it is finite.
* `isFinite_of_hypot`: a length is finite only if both sides of the triangle are.
-/

namespace Toolpath.Number

open Float.Model (UnpackedFloat Format)

/-! ## Rounding -/

section Pack

open Float.Model.UnpackedFloat

variable {u v : UnpackedFloat}

theorem isFinite_pack (h : (Float.Model.pack u).isFinite = true) : u.isFinite = true := by
  cases u with
  | notANumber => exact absurd h (by decide)
  | infinity s => cases s <;> exact absurd h (by decide)
  | zero s => rfl
  | finite s m e hm => rfl

theorem isNaN_of_unpacked_isFinite (h : u.isFinite = true) : u.isNaN = false := by
  cases u with
  | notANumber => cases h
  | _ => rfl

theorem isFinite_dite {c : Prop} [Decidable c] {a : c → UnpackedFloat} {b : ¬ c → UnpackedFloat}
    (ha : ∀ h, (a h).isFinite = true) (hb : ∀ h, (b h).isFinite = true) :
    (dite c a b).isFinite = true := by
  by_cases h : c
  · rw [dif_pos h]
    exact ha h
  · rw [dif_neg h]
    exact hb h

/-- The exponent of a double tells whether it is finite. -/
theorem isFinite_unpack (b : BitVec Format.binary64.numBits) :
    (unpack .binary64 b).isFinite = true ↔ unpackExponent b ≠ -1#11 := by
  unfold unpack
  dsimp only
  by_cases htop : unpackExponent b = -1#11
  · rw [if_pos htop]
    refine iff_of_false ?_ (not_not_intro htop)
    split <;> exact Bool.false_ne_true
  · rw [if_neg htop]
    refine iff_of_true ?_ htop
    by_cases hlow : unpackExponent b = 0#11
    · rw [if_pos hlow]
      exact isFinite_dite (fun _ => rfl) (fun _ => rfl)
    · rw [if_neg hlow]
      rfl

/-- Parts with room in the exponent never stand for what is no number. -/
theorem isNaN_unpack_components {s : Sign} {e : BitVec 11} {m : BitVec 52} (h : e ≠ -1#11) :
    (unpack .binary64 (packComponents .binary64 s e m)).isNaN = false := by
  refine isNaN_of_unpacked_isFinite ((isFinite_unpack _).mpr ?_)
  rwa [unpackExponent_packComponents]

theorem isNaN_pack (u : UnpackedFloat) : (Float.Model.pack u).isNaN = u.isNaN := by
  cases u with
  | notANumber => decide
  | infinity s => cases s <;> decide
  | zero s => cases s <;> decide
  | finite s m e hm =>
    change (unpack .binary64 (pack .binary64 (.finite s m e hm))).isNaN = false
    unfold pack
    dsimp only
    split
    · cases s <;> decide
    · rename_i hroom
      split
      · refine isNaN_unpack_components fun he => hroom ?_
        have hn := congrArg BitVec.toNat he
        rw [BitVec.toNat_ofNat] at hn
        change _ % 2048 = 2047 at hn
        change 2048 ≤ _
        omega
      · exact isNaN_unpack_components (by decide)

theorem isFinite_round (sign : Sign) (m : Nat) (e : Int) :
    (UnpackedFloat.round .binary64 sign m e).isFinite = true := by
  unfold UnpackedFloat.round roundWithAccuracy
  exact isFinite_dite (fun _ => rfl) (fun _ => rfl)

theorem isFinite_normalize (m : Int) (e : Int) (zeroSign : Sign) :
    (UnpackedFloat.normalize .binary64 m e zeroSign).isFinite = true := by
  unfold UnpackedFloat.normalize
  split
  · exact isFinite_round _ _ _
  · rfl
  · exact isFinite_round _ _ _

theorem isNaN_unpackedAdd (hu : u.isNaN = false) (hv : v.isFinite = true) :
    (add .binary64 u v).isNaN = false := by
  fun_cases add .binary64 u v with
  | case1 => cases hu
  | case2 | case3 | case4 | case6 => cases hv
  | case5 | case7 | case8 => rfl
  | case9 => exact isNaN_of_unpacked_isFinite hv
  | case10 => exact hu
  | case11 => exact isNaN_of_unpacked_isFinite (isFinite_normalize _ _ _)

theorem isNaN_unpackedSub (hu : u.isNaN = false) (hv : v.isFinite = true) :
    (sub .binary64 u v).isNaN = false := by
  fun_cases sub .binary64 u v with
  | case1 => cases hu
  | case2 | case3 | case4 | case6 => cases hv
  | case5 | case7 | case8 | case9 => rfl
  | case10 => exact hu
  | case11 => exact isNaN_of_unpacked_isFinite (isFinite_normalize _ _ _)

theorem isFinite_of_unpackedSub (h : (sub .binary64 u v).isFinite = true) :
    u.isFinite = true ∧ v.isFinite = true := by
  revert h
  fun_cases sub .binary64 u v with intro h
  | case1 | case2 | case3 | case4 | case5 | case6 => cases h
  | case7 | case8 | case9 | case11 => exact ⟨rfl, rfl⟩
  | case10 => exact ⟨h, rfl⟩

end Pack

/-! ## Sums and differences -/

section Arithmetic

variable {x y : Float}

theorem isNaN_of_isFinite (h : x.isFinite = true) : x.isNaN = false :=
  isNaN_of_unpacked_isFinite h

/-- A finite number added to a number gives a number, perhaps an infinite one. -/
theorem isNaN_add (hx : x.isNaN = false) (hy : y.isFinite = true) : (x + y).isNaN = false :=
  (isNaN_pack _).trans (isNaN_unpackedAdd hx hy)

theorem isNaN_sub (hx : x.isNaN = false) (hy : y.isFinite = true) : (x - y).isNaN = false :=
  (isNaN_pack _).trans (isNaN_unpackedSub hx hy)

theorem isFinite_of_sub (h : (x - y).isFinite = true) : x.isFinite = true ∧ y.isFinite = true :=
  isFinite_of_unpackedSub (isFinite_pack h)

end Arithmetic

/-! ## Order -/

section Order

variable {x y low high : Float}

theorem lt_iff : x < y ↔ x.toModel.unpack.lt y.toModel.unpack = true := decide_eq_true_iff

theorem le_iff : x ≤ y ↔ x.toModel.unpack.le y.toModel.unpack = true := decide_eq_true_iff

theorem nonneg_of_not_neg (hx : x.isFinite = true) (h : ¬ x < 0) : 0 ≤ x := by
  have hzero : (0 : Float).toModel.unpack = .zero .positive := rfl
  rw [lt_iff, hzero] at h
  rw [le_iff, hzero]
  change x.toModel.unpack.isFinite = true at hx
  generalize x.toModel.unpack = u at hx h ⊢
  cases u with
  | notANumber | infinity => cases hx
  | zero => rfl
  | finite s m e hm =>
    cases s with
    | positive => rfl
    | negative => exact absurd rfl h

/-- A number between finite bounds is finite. -/
theorem isFinite_of_between (hlow : low.isFinite = true) (hhigh : high.isFinite = true)
    (hx : x.isNaN = false) (hl : ¬ x < low) (hh : ¬ high < x) : x.isFinite = true := by
  rw [lt_iff] at hl hh
  change x.toModel.unpack.isNaN = false at hx
  change low.toModel.unpack.isFinite = true at hlow
  change high.toModel.unpack.isFinite = true at hhigh
  change x.toModel.unpack.isFinite = true
  generalize x.toModel.unpack = u at hx hl hh ⊢
  generalize low.toModel.unpack = l at hlow hl
  generalize high.toModel.unpack = t at hhigh hh
  cases u with
  | notANumber => cases hx
  | infinity s =>
    cases s with
    | positive =>
      cases t with
      | notANumber | infinity => cases hhigh
      | zero | finite => exact absurd rfl hh
    | negative =>
      cases l with
      | notANumber | infinity => cases hlow
      | zero | finite => exact absurd rfl hl
  | zero | finite => rfl

end Order

/-! ## Parts -/

section Shape

open Float.Model.UnpackedFloat

variable {x y : Float}

theorem unpackExponent_toNat (b : BitVec Format.binary64.numBits) :
    (unpackExponent b).toNat = b.toNat / twoTo 52 % twoTo 11 := by
  simp only [unpackExponent, BitVec.toNat_cast, BitVec.extractLsb_toNat, Nat.shiftRight_eq_div_pow]
  rfl

/-- The parts of a double tell whether it is finite. -/
theorem isFinite_iff_shape : x.isFinite = true ↔ ∃ negative m e, shape x = .finite negative m e := by
  have hx : x.isFinite = true ↔ x.toBits.toNat / twoTo 52 % twoTo 11 ≠ 2047 := by
    have htop := isFinite_unpack x.toBits.toBitVec
    rwa [Ne, ← BitVec.toNat_inj, unpackExponent_toNat] at htop
  rw [hx]
  unfold shape
  dsimp only
  split
  · rename_i h
    refine iff_of_false (not_not_intro h) ?_
    rintro ⟨negative, m, e, hs⟩
    split at hs <;> cases hs
  · rename_i h
    refine iff_of_true h ?_
    split <;> exact ⟨_, _, _, rfl⟩

/-- A length is finite only if both sides of the triangle are. -/
theorem isFinite_of_hypot (h : (hypot x y).isFinite = true) :
    x.isFinite = true ∧ y.isFinite = true := by
  rw [isFinite_iff_shape, isFinite_iff_shape]
  unfold hypot at h
  split at h
  · exact absurd h (by decide)
  · exact absurd h (by decide)
  · exact absurd h (by decide)
  · exact absurd h (by decide)
  · rename_i hx hy
    exact ⟨⟨_, _, _, hx⟩, ⟨_, _, _, hy⟩⟩

end Shape

end Toolpath.Number
