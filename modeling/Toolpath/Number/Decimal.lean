import Toolpath.Number.Binary64

/-!
# Decimals of a double

The digits that the standard library and `serde_json` write of a double.

* `Decimal`: `digits · 10 ^ exponent`.
* `shortest`: of the decimals that read back as a given double, one with the fewest digits, and of
  those the nearest to the double.
* `nearestAt`: a double rounded to a multiple of a power of ten.
* `ofDecimal`: the double nearest to a decimal.
-/

namespace Toolpath.Number

/-- The number `digits · 10 ^ exponent`. -/
structure Decimal where
  digits : Nat
  exponent : Int
deriving DecidableEq, Repr

/-- The same number without zeros at the end of its digits. -/
def Decimal.dropZeros (d : Decimal) : Decimal :=
  if h : d.digits ≠ 0 ∧ d.digits % 10 = 0 then
    Decimal.dropZeros ⟨d.digits / 10, d.exponent + 1⟩
  else d
termination_by d.digits
decreasing_by omega

/-- The decimal digits of a number, most significant first. -/
def digitChars (n : Nat) : List Char := Nat.toDigits 10 n

/-- `a · 2 ^ p ≤ b · 10 ^ k`, in whole numbers. -/
def scaledLe (a : Nat) (p : Int) (b : Nat) (k : Int) : Bool :=
  a * twoTo p.toNat * tenTo (-k).toNat ≤ b * tenTo k.toNat * twoTo (-p).toNat

/-- `a · 2 ^ p < b · 10 ^ k`, in whole numbers. -/
def scaledLt (a : Nat) (p : Int) (b : Nat) (k : Int) : Bool :=
  a * twoTo p.toNat * tenTo (-k).toNat < b * tenTo k.toNat * twoTo (-p).toNat

/-- The `p` with `10 ^ (p - 1) ≤ m · 2 ^ q < 10 ^ p`, for `m` positive: the position of the point
counted from the first digit. A power of two lies within a factor two of the value, so the logarithm
fixes `p` up to one. -/
def pointPosition (m : Nat) (q : Int) : Int :=
  let guess := ((m.log2 : Int) + q) * 30103 / 100000
  if scaledLt m q 1 guess then guess
  else if scaledLt m q 1 (guess + 1) then guess + 1
  else guess + 2

/-- The reals that round to `m · 2 ^ q`, as quarters of the unit `2 ^ q`. Below a power of two the
doubles lie twice as dense; the ends belong to the interval when the mantissa is even. -/
structure Interval where
  low : Nat
  high : Nat
  closed : Bool

/-- The reals that round to the finite double `m · 2 ^ q`. -/
def roundingInterval (m : Nat) (q : Int) : Interval :=
  { low := if m = twoTo 52 && minExponent < q then 4 * m - 1 else 4 * m - 2
    high := 4 * m + 2
    closed := m % 2 = 0 }

/-- Whether `d · 10 ^ k` lies in the interval around `m · 2 ^ q`. -/
def Interval.holds (i : Interval) (q : Int) (d : Nat) (k : Int) : Bool :=
  if i.closed then scaledLe i.low (q - 2) d k && !scaledLt i.high (q - 2) d k
  else scaledLt i.low (q - 2) d k && !scaledLe i.high (q - 2) d k

/-- The neighbours of `m · 2 ^ q` on the grid of multiples of `10 ^ k` that read back as it; of two the
nearer, of two equally near ones as `tie` says. -/
def gridHit (tie : Tie) (m : Nat) (q k : Int) : Option Nat :=
  let num := m * twoTo q.toNat * tenTo (-k).toNat
  let den := tenTo k.toNat * twoTo (-q).toNat
  let below := num / den
  let interval := roundingInterval m q
  match interval.holds q below k, interval.holds q (below + 1) k with
  | true, true => some (roundDiv tie num den)
  | true, false => some below
  | false, true => some (below + 1)
  | false, false => none

/-- Tries grids from coarse to fine, `fuel` more of them; seventeen digits always suffice. -/
def searchGrids (tie : Tie) (m : Nat) (q : Int) : Nat → Int → Decimal
  | 0, k => ⟨roundDiv .toEven (m * twoTo q.toNat * tenTo (-k).toNat) (tenTo k.toNat * twoTo (-q).toNat), k⟩
  | fuel + 1, k =>
    match gridHit tie m q k with
    | some d => ⟨d, k⟩
    | none => searchGrids tie m q fuel (k - 1)

/-- Of the decimals that read back as `m · 2 ^ q`, `m` positive, the nearest with the fewest digits.
The upper neighbour of the first grid can be a power of ten, which one digit writes. -/
def shortest (tie : Tie) (m : Nat) (q : Int) : Decimal :=
  (searchGrids tie m q 17 (pointPosition m q - 1)).dropZeros

/-- `m · 2 ^ q` in units of `10 ^ k`, rounded to the nearest whole number, ties to even. -/
def nearestAt (m : Nat) (q k : Int) : Nat :=
  roundDiv .toEven (m * twoTo q.toNat * tenTo (-k).toNat) (tenTo k.toNat * twoTo (-q).toNat)

/-- The double nearest to a decimal, ties to even; too large a value is infinite. -/
def ofDecimal (d : Decimal) : Float :=
  if d.digits = 0 then 0
  else if 400 < d.exponent then 1 / 0
  else if d.exponent + (digitChars d.digits).length < -400 then 0
  else if 0 ≤ d.exponent then Float.ofScientific d.digits false d.exponent.toNat
  else Float.ofScientific d.digits true (-d.exponent).toNat

/-- Gives a magnitude its sign; a negative zero stays negative. -/
def signed (negative : Bool) (x : Float) : Float := if negative then -x else x

end Toolpath.Number
