import Toolpath.Number.Reading
import Toolpath.Text.Reader
import Toolpath.Value

/-!
# Reading JSON

`serde_json::from_str` up to the tree of the text. The strict grammar: no comments, no trailing commas,
no second document.

* `Numeral`: a number as read, with a significand of at most 64 bits; digits that do not fit are
  counted or dropped.
* `Numeral.value`: a whole number if it has neither point nor exponent and fits into 64 bits, else the
  significand times or divided by a power of ten, with one rounding for each step.
* `read?`: the tree of a text.
-/

namespace Toolpath.Json

open Number Text

/-- The blanks that JSON knows. -/
def isSpace (c : Char) : Bool := c = ' ' || c = '\n' || c = '\t' || c = '\r'

/-- A text without the blanks in front. -/
def skipSpace (s : List Char) : List Char := s.dropWhile isSpace

/-! ## Numbers -/

/-- A number as read. -/
structure Numeral where
  negative : Bool
  significand : Nat
  exponent : Int
  whole : Bool
deriving DecidableEq, Repr

/-- One more than the greatest significand. -/
def significandBound : Nat := twoTo 64

/-- A significand with one more digit, if that fits. -/
def pushDigit? (significand : Nat) (c : Char) : Option Nat :=
  let n := 10 * significand + (c.toNat - '0'.toNat)
  if n < significandBound then some n else none

/-- The digits before the point: from the first that does not fit on, they only count. -/
def wholeDigits : Nat → List Char → Nat × Nat
  | significand, [] => (significand, 0)
  | significand, c :: ds =>
    match pushDigit? significand c with
    | some n => wholeDigits n ds
    | none => (significand, ds.length + 1)

/-- The digits after the point: from the first that does not fit on, they are dropped. -/
def fractionDigits : Nat → List Char → Nat × Nat
  | significand, [] => (significand, 0)
  | significand, c :: ds =>
    match pushDigit? significand c with
    | some n =>
      let (m, places) := fractionDigits n ds
      (m, places + 1)
    | none => (significand, 0)

/-- A run of at least one digit. -/
def digits? (s : List Char) : Option (List Char × List Char) :=
  match s.takeWhile Char.isDigit with
  | [] => none
  | ds => some (ds, s.dropWhile Char.isDigit)

/-- The part after the point, if there is one. -/
def fraction? (significand : Nat) : Reader (Nat × Nat × Bool)
  | '.' :: s => do
    let (ds, rest) ← digits? s
    let (n, places) := fractionDigits significand ds
    return ((n, places, true), rest)
  | s => some ((significand, 0, false), s)

/-- The exponent, if there is one. -/
def power? : Reader (Int × Bool)
  | c :: s =>
    if c = 'e' || c = 'E' then do
      let (negative, r) := splitSign s
      let (ds, rest) ← digits? r
      let n : Int := natOfDigits ds
      return ((if negative then -n else n, true), rest)
    else some ((0, false), c :: s)
  | [] => some ((0, false), [])

/-- A number. A zero in front stands alone. -/
def numeral? (s : List Char) : Option (Numeral × List Char) := do
  let negative := s.head? = some '-'
  let (ds, s) ← digits? (if negative then s.drop 1 else s)
  if ds.head? = some '0' && ds.length ≠ 1 then none
  let (significand, dropped) := wholeDigits 0 ds
  let ((significand, places, pointed), s) ← fraction? significand s
  let ((power, scaled), s) ← power? s
  let whole := dropped = 0 && !pointed && !scaled
  return (⟨negative, significand, dropped - places + power, whole⟩, s)

/-- Scales by a power of ten, at most `10³⁰⁸` at a time; nothing if the result is too large. Three steps
bring any significand to zero. -/
def scaleTen? : Nat → Float → Int → Option Float
  | 0, x, _ => some x
  | fuel + 1, x, e =>
    if e.natAbs ≤ 308 then
      let power := Float.ofScientific 1 false e.natAbs
      if 0 ≤ e then
        let y := x * power
        if y.isInf then none else some y
      else some (x / power)
    else if x == 0 then some x
    else if 0 ≤ e then none
    else scaleTen? fuel (x / Float.ofScientific 1 false 308) (e + 308)

/-- What a number stands for. A negative whole number without magnitude is the double `-0`. -/
def Numeral.value (n : Numeral) : Value :=
  if n.whole && !n.negative then .integer n.significand
  else if n.whole && 0 < n.significand && n.significand ≤ twoTo 63 then .integer (-n.significand)
  else
    match scaleTen? 4 (Float.ofNat n.significand) n.exponent with
    | some x => .real (signed n.negative x)
    | none => .unheld

/-! ## Strings -/

/-- The value of a hexadecimal digit. -/
def hexValue? (c : Char) : Option Nat :=
  if c.isDigit then some (c.toNat - 48)
  else if 'a' ≤ c && c ≤ 'f' then some (c.toNat - 87)
  else if 'A' ≤ c && c ≤ 'F' then some (c.toNat - 55)
  else none

/-- Four hexadecimal digits. -/
def hex4? : Reader Nat
  | a :: b :: c :: d :: s => do
    let a ← hexValue? a
    let b ← hexValue? b
    let c ← hexValue? c
    let d ← hexValue? d
    return (4096 * a + 256 * b + 16 * c + d, s)
  | _ => none

/-- The character of a pair of units above the basic plane. -/
def pairedChar? (high : Nat) : List Char → Option (Char × List Char)
  | '\\' :: 'u' :: s => do
    let (low, rest) ← hex4? s
    if 0xDC00 ≤ low && low < 0xE000 then
      some (Char.ofNat (0x10000 + 0x400 * (high - 0xD800) + (low - 0xDC00)), rest)
    else none
  | _ => none

/-- A character by its code unit, or by two units above the basic plane; one of two units alone is no
character. -/
def unicodeEscape? : Reader (Option Char) := fun s => do
  let (n, rest) ← hex4? s
  if 0xD800 ≤ n && n < 0xDC00 then
    match pairedChar? n rest with
    | some (c, rest) => some (some c, rest)
    | none => some (none, rest)
  else if 0xDC00 ≤ n && n < 0xE000 then some (none, rest)
  else some (some (Char.ofNat n), rest)

/-- What stands behind a backslash. -/
def escape? : Reader (Option Char)
  | '"' :: s => some ('"', s)
  | '\\' :: s => some ('\\', s)
  | '/' :: s => some ('/', s)
  | 'b' :: s => some ('\x08', s)
  | 'f' :: s => some ('\x0c', s)
  | 'n' :: s => some ('\n', s)
  | 'r' :: s => some ('\r', s)
  | 't' :: s => some ('\t', s)
  | 'u' :: s => unicodeEscape? s
  | _ => none

/-- The characters up to the closing quote, after those that were read before, the last first. Each
takes at least one of the text, so one more than its length is fuel enough. -/
def stringBody? : Nat → List (Option Char) → Reader (List (Option Char))
  | 0, _, _ => none
  | fuel + 1, before, s =>
    match s with
    | [] => none
    | '"' :: rest => some (before.reverse, rest)
    | '\\' :: r =>
      match escape? r with
      | some (c, rest) => stringBody? fuel (c :: before) rest
      | none => none
    | c :: rest => if c.toNat < 32 then none else stringBody? fuel (some c :: before) rest

/-- A string whose opening quote was cut off; nothing, if not all of it stands for characters. -/
def string? (fuel : Nat) : Reader (Option String) := fun s => do
  let (cs, rest) ← stringBody? fuel [] s
  return ((cs.mapM id).map String.ofList, rest)

/-! ## Trees -/

/-- Takes a word off the front. -/
def keyword? (word : String) (v : Value) : Reader Value := fun s =>
  if word.toList.isPrefixOf s then some (v, s.drop word.length) else none

/-- A table, if all its keys stand for characters. -/
def tableOf (entries : List (Option String × Value)) : Value :=
  match entries.mapM fun (key, v) => key.map fun key => (key, v) with
  | some entries => .table entries
  | none => .unheld

mutual

/-- A tree, blanks in front of it allowed. -/
def value? : Nat → Reader Value
  | 0, _ => none
  | fuel + 1, s =>
    match skipSpace s with
    | 'n' :: r => keyword? "ull" .null r
    | 't' :: r => keyword? "rue" (.bool true) r
    | 'f' :: r => keyword? "alse" (.bool false) r
    | '"' :: r => (string? fuel r).map fun (s, rest) => ((s.map .string).getD .unheld, rest)
    | '[' :: r =>
      match skipSpace r with
      | ']' :: rest => some (.array [], rest)
      | r => (items? fuel r).map fun (vs, rest) => (.array vs, rest)
    | '\x7b' :: r =>
      match skipSpace r with
      | '\x7d' :: rest => some (.table [], rest)
      | r => (entries? fuel r).map fun (es, rest) => (tableOf es, rest)
    | r => (numeral? r).map fun (n, rest) => (n.value, rest)

/-- The items of an array, at least one, with the closing bracket. -/
def items? : Nat → Reader (List Value)
  | 0, _ => none
  | fuel + 1, s => do
    let (v, s) ← value? fuel s
    match skipSpace s with
    | ']' :: rest => some ([v], rest)
    | ',' :: r =>
      let (vs, rest) ← items? fuel r
      some (v :: vs, rest)
    | _ => none

/-- The entries of a table, at least one, with the closing bracket. -/
def entries? : Nat → Reader (List (Option String × Value))
  | 0, _ => none
  | fuel + 1, s =>
    match skipSpace s with
    | '"' :: r => do
      let (key, r) ← string? fuel r
      match skipSpace r with
      | ':' :: r =>
        let (v, s) ← value? fuel r
        match skipSpace s with
        | '\x7d' :: rest => some ([(key, v)], rest)
        | ',' :: r =>
          let (es, rest) ← entries? fuel r
          some ((key, v) :: es, rest)
        | _ => none
      | _ => none
    | _ => none

end

/-- The tree of a text that holds one tree and blanks. Every call takes a character or hands over to one
that does, so twice the length is fuel enough. -/
def read? (text : String) : Option Value :=
  let s := text.toList
  match value? (2 * s.length + 2) s with
  | some (v, rest) => if (skipSpace rest).isEmpty then some v else none
  | none => none

end Toolpath.Json
