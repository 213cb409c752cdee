/-!
# Powers of two and of ten

The scales of binary words and of decimal numerals, as natural numbers.

* `twoTo`, `tenTo`: the powers.
-/

namespace Toolpath.Number

/-- Two to the power of `n`. -/
def twoTo (n : Nat) : Nat := Nat.pow 2 n

/-- Ten to the power of `n`. -/
def tenTo (n : Nat) : Nat := Nat.pow 10 n

end Toolpath.Number
