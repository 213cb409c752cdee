import Toolpath.Number.Power

/-!
# Doubles as exact numbers

A finite double is `± mantissa · 2 ^ exponent`. `shape` reads these parts off the bits, so that
everything said about printed or rounded values is exact arithmetic on `Nat`.

* `shape`: the parts of a double.
* `integer?`: the integer that a double is equal to, if any.
* `roundDiv`: a quotient rounded to the nearest integer, an exact half to the even neighbour.
* `ofScaled`: the double nearest to `mantissa · 2 ^ exponent`.
-/

namespace Toolpath.Number

/-- What a double stands for. -/
inductive Shape where
  | nan
  | infinite (negative : Bool)
  | finite (negative : Bool) (mantissa : Nat) (exponent : Int)
deriving DecidableEq, Repr

/-- The least exponent of a finite double. -/
def minExponent : Int := -1074

/-- The parts of a double. A mantissa below `2 ^ 52` occurs only with the least exponent. -/
def shape (x : Float) : Shape :=
  let bits : Nat := x.toBits.toNat
  let negative := decide (twoTo 63 ≤ bits)
  let biased : Nat := bits / twoTo 52 % twoTo 11
  let fraction := bits % twoTo 52
  if biased = 2047 then
    if fraction = 0 then .infinite negative else .nan
  else if biased = 0 then
    .finite negative fraction minExponent
  else
    .finite negative (twoTo 52 + fraction) ((biased : Int) - 1075)

/-- Which way an exact half goes when a quotient is rounded. -/
inductive Tie where
  | toEven
  | up
deriving DecidableEq, Repr

/-- `num / den` rounded to the nearest integer, an exact half as `tie` says. -/
def roundDiv (tie : Tie) (num den : Nat) : Nat :=
  let q := num / den
  let r := num % den
  if 2 * r < den then q
  else if den < 2 * r then q + 1
  else match tie with
    | .toEven => if q % 2 = 0 then q else q + 1
    | .up => q + 1

/-- The integer that a double is equal to, if there is one. -/
def integer? (x : Float) : Option Int :=
  match shape x with
  | .nan | .infinite _ => none
  | .finite negative m e =>
    let sign : Nat → Int := fun n => if negative then -(n : Int) else n
    if 0 ≤ e then some (sign (m * twoTo e.toNat))
    else
      let unit := twoTo (-e).toNat
      if m % unit = 0 then some (sign (m / unit)) else none

/-- The double nearest to `mantissa · 2 ^ exponent`, ties to even; too large a value is infinite. Its
bits are the exponent above the fraction, so a mantissa that is rounded up to the next power of two
carries into the exponent. -/
def ofScaled (mantissa : Nat) (exponent : Int) : Float :=
  let unit := max (exponent + mantissa.log2 - 52) minExponent
  let n :=
    if unit ≤ exponent then mantissa * twoTo (exponent - unit).toNat
    else roundDiv .toEven mantissa (twoTo (unit - exponent).toNat)
  let bits := if n < twoTo 52 then n else (unit - minExponent + 1).toNat * twoTo 52 + (n - twoTo 52)
  Float.ofBits (min bits (2047 * twoTo 52)).toUInt64

end Toolpath.Number
