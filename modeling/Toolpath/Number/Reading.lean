import Toolpath.Number.Decimal

/-!
# Reading doubles

`f64::from_str` of the standard library.

* `decimal?`: an unsigned decimal with an optional point, read exactly.
* `float?`: a signed decimal with optional exponent, or a word for an infinity or not-a-number,
  rounded to the nearest double.
-/

namespace Toolpath.Number

/-- The number that a text of decimal digits stands for. -/
def natOfDigits (ds : List Char) : Nat := ds.foldl (fun n c => 10 * n + (c.toNat - '0'.toNat)) 0

/-- Digits with at most one point among or around them, and at least one digit. -/
def decimal? (s : List Char) : Option Decimal :=
  let whole := s.takeWhile Char.isDigit
  match s.dropWhile Char.isDigit with
  | [] => if whole.isEmpty then none else some ⟨natOfDigits whole, 0⟩
  | c :: fraction =>
    if c = '.' && fraction.all Char.isDigit && !(whole.isEmpty && fraction.isEmpty) then
      some ⟨natOfDigits (whole ++ fraction), -(fraction.length : Int)⟩
    else none

/-- A sign in front, read as whether the number is negative, and what follows it. -/
def splitSign : List Char → Bool × List Char
  | '-' :: s => (true, s)
  | '+' :: s => (false, s)
  | s => (false, s)

/-- A signed run of at least one digit. -/
def exponent? (s : List Char) : Option Int :=
  let (negative, ds) := splitSign s
  if ds.isEmpty || !ds.all Char.isDigit then none
  else some (if negative then -(natOfDigits ds : Int) else natOfDigits ds)

/-- A magnitude: a decimal with an optional exponent, or a word in any letter case. -/
def magnitude? (s : List Char) : Option Float :=
  match String.ofList (s.map Char.toLower) with
  | "inf" | "infinity" => some (1 / 0)
  | "nan" => some (0 / 0)
  | _ =>
    let isMark : Char → Bool := fun c => c = 'e' || c = 'E'
    let mantissa := s.takeWhile fun c => !isMark c
    match s.dropWhile fun c => !isMark c with
    | [] => (decimal? mantissa).map ofDecimal
    | _ :: power => do
      let d ← decimal? mantissa
      let e ← exponent? power
      return ofDecimal { d with exponent := d.exponent + e }

/-- Reads a double, rounded to nearest. -/
def float? (s : String) : Option Float :=
  let (negative, rest) := splitSign s.toList
  (magnitude? rest).map (signed negative)

end Toolpath.Number
