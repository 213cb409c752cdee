/-!
# Blank characters

The Unicode property `White_Space`, as `char::is_whitespace` has it: the 25 characters that separate
words on a line, and trimming by them.

* `isBlank`: membership in the property.
* `trim`: a text without the blanks at both ends.
* `asciiLower`: `to_ascii_lowercase`.
-/

namespace Toolpath.Text

/-- The characters of the Unicode property `White_Space`. -/
def isBlank (c : Char) : Bool :=
  let n := c.toNat
  (0x9 ≤ n && n ≤ 0xD) || n == 0x20 || n == 0x85 || n == 0xA0 || n == 0x1680 ||
    (0x2000 ≤ n && n ≤ 0x200A) || n == 0x2028 || n == 0x2029 || n == 0x202F || n == 0x205F ||
    n == 0x3000

/-- A text without the blanks in front. -/
def skipBlanks (s : List Char) : List Char := s.dropWhile isBlank

/-- A text without the blanks at both ends. -/
def trim (s : List Char) : List Char := (skipBlanks (skipBlanks s).reverse).reverse

/-- Skipping blanks never lengthens a text. -/
theorem skipBlanks_length_le (s : List Char) : (skipBlanks s).length ≤ s.length := by
  unfold skipBlanks
  induction s with
  | nil => simp
  | cons c s ih =>
    rw [List.dropWhile_cons]
    split
    · exact Nat.le_succ_of_le ih
    · exact Nat.le_refl _

/-- A text as far as it is ASCII in lower case; other characters stay. -/
def asciiLower (s : String) : String := s.map Char.toLower

end Toolpath.Text
