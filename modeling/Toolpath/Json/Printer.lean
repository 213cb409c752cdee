import Toolpath.Number.Layout
import Toolpath.Value

/-!
# Writing JSON

The texts of `serde_json::to_string` and `serde_json::to_string_pretty`.

* `numberText`: the fewest digits that read back, written out for magnitudes from `10⁻⁵` up to `10¹⁶`
  and with an exponent otherwise; a double that is no number is `null`.
* `quoted`: a string with its escapes.
* `compact`: a tree on one line.
* `pretty`: a tree with one entry a line, indented by two spaces.
-/

namespace Toolpath.Json

open Number

/-- A decimal with its point after the first digit and a signed exponent. -/
def exponential (d : Decimal) : List Char :=
  let ds := digitChars d.digits
  let power := d.exponent + ds.length - 1
  let mantissa := ds.take 1 ++ (if ds.length = 1 then [] else '.' :: ds.drop 1)
  let sign := if power < 0 then '-' else '+'
  mantissa ++ 'e' :: sign :: digitChars power.natAbs

/-- A decimal as a JSON number that reads as a fraction. -/
def decimalText (d : Decimal) : List Char :=
  let power := d.exponent + (digitChars d.digits).length - 1
  if -5 ≤ power && power < 16 then
    if 0 ≤ d.exponent then positional d ++ ['.', '0'] else positional d
  else exponential d

/-- The text of a double. -/
def numberText (x : Float) : String :=
  match shape x with
  | .nan | .infinite _ => "null"
  | .finite negative m q =>
    let body := if m = 0 then ['0', '.', '0'] else decimalText (shortest .toEven m q)
    String.ofList (signChars negative ++ body)

/-- A hexadecimal digit, in lower case. -/
def hexDigit (n : Nat) : Char := Char.ofNat (if n < 10 then 48 + n else 87 + n)

/-- A character inside a string: quotes, backslashes and control characters are escaped. -/
def escaped (c : Char) : List Char :=
  match c with
  | '"' => ['\\', '"']
  | '\\' => ['\\', '\\']
  | '\n' => ['\\', 'n']
  | '\r' => ['\\', 'r']
  | '\t' => ['\\', 't']
  | '\x08' => ['\\', 'b']
  | '\x0c' => ['\\', 'f']
  | c =>
    if c.toNat < 32 then ['\\', 'u', '0', '0', hexDigit (c.toNat / 16), hexDigit (c.toNat % 16)]
    else [c]

/-- A string between quotes. -/
def quoted (s : String) : String := String.ofList ('"' :: s.toList.flatMap escaped ++ ['"'])

/-- The text of a tree's leaf. -/
def scalarText : Value → String
  | .bool true => "true"
  | .bool false => "false"
  | .integer n => toString n
  | .real x => numberText x
  | .string s => quoted s
  | _ => "null"

/-! ## On one line -/

mutual

/-- A tree without blanks. -/
def compact : Value → String
  | .array items => "[" ++ ",".intercalate (compactItems items) ++ "]"
  | .table entries => "\x7b" ++ ",".intercalate (compactEntries entries) ++ "\x7d"
  | v => scalarText v

def compactItems : List Value → List String
  | [] => []
  | v :: vs => compact v :: compactItems vs

def compactEntries : List (String × Value) → List String
  | [] => []
  | (key, v) :: entries => (quoted key ++ ":" ++ compact v) :: compactEntries entries

end

/-! ## One entry a line -/

/-- The blanks in front of a line at a given depth. -/
def indent (depth : Nat) : String := String.ofList (List.replicate (2 * depth) ' ')

/-- Lines of entries between brackets; nothing between brackets stays on one line. -/
def bracketed (opener closer : String) (depth : Nat) (lines : List String) : String :=
  if lines.isEmpty then opener ++ closer
  else
    opener ++ "\n" ++ ",\n".intercalate (lines.map fun line => indent (depth + 1) ++ line) ++ "\n" ++
      indent depth ++ closer

mutual

/-- A tree that starts at a given depth. -/
def prettyAt (depth : Nat) : Value → String
  | .array items => bracketed "[" "]" depth (prettyItems (depth + 1) items)
  | .table entries => bracketed "\x7b" "\x7d" depth (prettyEntries (depth + 1) entries)
  | v => scalarText v

def prettyItems (depth : Nat) : List Value → List String
  | [] => []
  | v :: vs => prettyAt depth v :: prettyItems depth vs

def prettyEntries (depth : Nat) : List (String × Value) → List String
  | [] => []
  | (key, v) :: entries =>
    (quoted key ++ ": " ++ prettyAt depth v) :: prettyEntries depth entries

end

/-- A tree over several lines. -/
def pretty (v : Value) : String := prettyAt 0 v

end Toolpath.Json
