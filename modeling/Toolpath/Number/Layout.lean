import Toolpath.Number.Decimal

/-!
# Texts of doubles

How a double is written, once its digits are chosen: the formats `{}` (`plain`) and `{:.3}` (`fixed`) of
the standard library, and the one with an exponent.

* `plain`: fewest digits, never an exponent, no point for whole numbers.
* `fixed`: a set number of places, rounded from the exact value.
* `scientific`: one digit before the point, a set number after it, and an exponent.
-/

namespace Toolpath.Number

/-- A text of `n` zeros. -/
def zeros (n : Nat) : List Char := List.replicate n '0'

/-- A sign for negative numbers, none for the others. -/
def signChars (negative : Bool) : List Char := if negative then ['-'] else []

/-- A decimal written out in full: without a point if it is whole, else with digits on both sides. -/
def positional (d : Decimal) : List Char :=
  let ds := digitChars d.digits
  if 0 ≤ d.exponent then ds ++ zeros d.exponent.toNat
  else
    let places := (-d.exponent).toNat
    if places < ds.length then
      ds.take (ds.length - places) ++ '.' :: ds.drop (ds.length - places)
    else
      '0' :: '.' :: zeros (places - ds.length) ++ ds

/-- The fewest digits that read back, never an exponent. Of two equally near candidates the upper one
is taken. -/
def plain (x : Float) : String :=
  match shape x with
  | .nan => "NaN"
  | .infinite negative => String.ofList (signChars negative ++ ['i', 'n', 'f'])
  | .finite negative m q =>
    let body := if m = 0 then ['0'] else positional (shortest .up m q)
    String.ofList (signChars negative ++ body)

/-- A set number of places after the point. The exact value is rounded, a half goes to the even
neighbour, and the sign stays even if only zeros remain. -/
def fixed (places : Nat) (x : Float) : String :=
  match shape x with
  | .nan => "NaN"
  | .infinite negative => String.ofList (signChars negative ++ ['i', 'n', 'f'])
  | .finite negative m q =>
    let ds := digitChars (nearestAt m q (-(places : Int)))
    let ds := zeros (places + 1 - ds.length) ++ ds
    let body :=
      if places = 0 then ds
      else ds.take (ds.length - places) ++ '.' :: ds.drop (ds.length - places)
    String.ofList (signChars negative ++ body)

/-- One digit before the point, `places` after it, and the power of ten after `e`. -/
def scientific (places : Nat) (x : Float) : String :=
  match shape x with
  | .nan => "NaN"
  | .infinite negative => String.ofList (signChars negative ++ ['i', 'n', 'f'])
  | .finite negative m q =>
    let power := if m = 0 then 0 else pointPosition m q - 1
    let n := nearestAt m q (power - places)
    let carried := n = tenTo (places + 1)
    let ds := digitChars (if carried then tenTo places else n)
    let ds := zeros (places + 1 - ds.length) ++ ds
    let power := if carried then power + 1 else power
    let body := ds.take 1 ++ (if places = 0 then [] else '.' :: ds.drop 1)
    String.ofList (signChars negative ++ body ++ 'e' :: (toString power).toList)

end Toolpath.Number
