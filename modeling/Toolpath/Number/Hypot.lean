import Toolpath.Number.Binary64

/-!
# Length of a right triangle's long side

`hypot x y` is the double nearest to `√(x² + y²)`. The square root is taken of an exact whole number,
so no intermediate value overflows or loses digits.

The standard library does not fix the last bit of its `hypot`: the precision may differ between
platforms, versions and runs. Rounding to nearest is one of the results it allows. What is proved about
arcs needs only which lengths are finite.

* `floorRoot`: the whole part of a square root.
* `hypot`: an infinite side gives an infinite length, else a side that is not a number gives none.
-/

namespace Toolpath.Number

/-- The greatest `r` with `r² ≤ n`: twice the root of `n / 4`, or one more. -/
def floorRoot (n : Nat) : Nat :=
  if n = 0 then 0
  else
    let r := 2 * floorRoot (n / 4)
    if (r + 1) * (r + 1) ≤ n then r + 1 else r
termination_by n

/-- `√n · 2 ^ e` to the nearest double. The root is taken with at least 56 bits, and a bit below it
tells whether something was cut off, so one rounding at the end is exact. -/
def rootScaled (n : Nat) (e : Int) : Float :=
  let shift := 60 - n.log2 / 2
  let scaled := n * twoTo (2 * shift)
  let r := floorRoot scaled
  let cut := if r * r = scaled then 0 else 1
  ofScaled (2 * r + cut) (e - shift - 1)

/-- The double nearest to `√(x² + y²)`; the standard library leaves the last bit of its `hypot` open. -/
def hypot (x y : Float) : Float :=
  match shape x, shape y with
  | .infinite _, _ => 1 / 0
  | _, .infinite _ => 1 / 0
  | .nan, _ => 0 / 0
  | _, .nan => 0 / 0
  | .finite _ m p, .finite _ n q =>
    let e := min p q
    let a := m * twoTo (p - e).toNat
    let b := n * twoTo (q - e).toNat
    if a = 0 && b = 0 then 0 else rootScaled (a * a + b * b) e

end Toolpath.Number
