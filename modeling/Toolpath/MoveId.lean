import Toolpath.Json.Printer

/-!
# Move identifiers

`MoveId`. An identifier of 128 bits, written as 32 hexadecimal digits in groups of 8, 4, 4, 4 and 12.

* `MoveId.text`: the written form, `Display`.
* `MoveId.parse?`: `from_str`. It reads the grouped form, the bare digits, the grouped form in braces,
  and the grouped form after `urn:uuid:`, in any letter case.
* `MoveId.mint`: the identifier of the move at a place of a run. `MoveId.new` draws a random one instead;
  nothing is proved from how an identifier is minted.
-/

namespace Toolpath

open Number (twoTo)

/-- An identifier of a move. -/
structure MoveId where
  bits : BitVec 128
deriving DecidableEq, Repr, Hashable

namespace MoveId

/-- The sizes of the groups of digits. -/
def groups : List Nat := [8, 4, 4, 4, 12]

/-- The 32 hexadecimal digits, the highest first. -/
def digits (id : MoveId) : List Char :=
  (List.range 32).map fun i => Json.hexDigit (id.bits.toNat / twoTo (4 * (31 - i)) % 16)

/-- Cuts a text into pieces of given sizes. -/
def cut : List Nat → List Char → List (List Char)
  | [], _ => []
  | n :: ns, s => s.take n :: cut ns (s.drop n)

/-- The written form. -/
def text (id : MoveId) : String :=
  "-".intercalate ((cut groups id.digits).map String.ofList)

/-- The value of a hexadecimal digit in either letter case. -/
def hexValue? (c : Char) : Option Nat :=
  if '0' ≤ c ∧ c ≤ '9' then some (c.toNat - '0'.toNat)
  else if 'a' ≤ c ∧ c ≤ 'f' then some (c.toNat - 'a'.toNat + 10)
  else if 'A' ≤ c ∧ c ≤ 'F' then some (c.toNat - 'A'.toNat + 10)
  else none

/-- Reads exactly 32 digits. -/
def ofDigits? (s : List Char) : Option MoveId := do
  if s.length ≠ 32 then none
  else
    let ds ← s.mapM hexValue?
    return ⟨BitVec.ofNat 128 (ds.foldl (fun n d => 16 * n + d) 0)⟩

/-- Reads groups of digits with hyphens between them, of the given sizes. -/
def ofGroups? : List Nat → List Char → Option (List Char)
  | [], s => if s.isEmpty then some [] else none
  | [n], s => if s.length = n then some s else none
  | n :: ns, s =>
    match s.drop n with
    | '-' :: rest => (ofGroups? ns rest).map (s.take n ++ ·)
    | _ => none

/-- Reads the grouped form. -/
def ofHyphenated? (s : List Char) : Option MoveId := (ofGroups? groups s).bind ofDigits?

/-- Reads any of the four forms. -/
def parse? (text : String) : Option MoveId :=
  let s := text.toList
  match s.length with
  | 32 => ofDigits? s
  | 36 => ofHyphenated? s
  | 38 => if s.head? = some '\x7b' && s.getLast? = some '\x7d' then ofHyphenated? ((s.drop 1).take 36)
    else none
  | 45 => if s.take 9 = "urn:uuid:".toList then ofHyphenated? (s.drop 9) else none
  | _ => none

/-- The identifier of the move at a place of a run. Sixty bits hold the run's number and the lowest 62
the place, around the marks of version and variant, so two moves of a process never share one. -/
def mint (run index : Nat) : MoveId :=
  let high := run % twoTo 60
  ⟨BitVec.ofNat 128 (high / twoTo 12 * twoTo 80 + 8 * twoTo 76 + high % twoTo 12 * twoTo 64 +
    2 * twoTo 62 + index % twoTo 62)⟩

end MoveId

end Toolpath
