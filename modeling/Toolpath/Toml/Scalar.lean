import Toolpath.MoveId
import Toolpath.Number.Reading
import Toolpath.Text.Reader
import Toolpath.Value

/-!
# TOML keys and scalars

* `comment?`, `newline?`, `skipSpace`: what stands between things.
* `string?`: the four kinds of strings. Lines inside strings end with a line feed, however they end in
  the text.
* `integer?`, `float?`, `dateTime?`: numbers and times. A time reads as a table with one entry.
* `key?`: names with dots between them.
-/

namespace Toolpath.Toml

open Text Text.Reader

/-! ## Between things -/

def isSpace (c : Char) : Bool := c = ' ' || c = '\t'

def skipSpace (s : List Char) : List Char := s.dropWhile isSpace

/-- Characters that may stand in a comment or a string: all but the control characters, the tab
excepted. -/
def isPlain (c : Char) : Bool := c = '\t' || (0x20 ≤ c.toNat && c.toNat ≠ 0x7F)

/-- The end of a line. -/
def newline? : Reader Unit
  | '\n' :: s => some ((), s)
  | '\r' :: '\n' :: s => some ((), s)
  | _ => none

/-- A text without the comment in front, if there is one. -/
def skipComment : List Char → List Char
  | '#' :: s => s.dropWhile isPlain
  | s => s

/-- What may follow on a line: blanks, a comment, and the end of the line or of the text. -/
def lineEnd? (s : List Char) : Option (List Char) :=
  match skipComment (skipSpace s) with
  | [] => some []
  | rest => (newline? rest).map Prod.snd

/-- A blank, or the end of a line with a comment before it. -/
def filler? : Reader Unit
  | [] => none
  | c :: s => if isSpace c then some ((), s) else newline? (skipComment (c :: s))

/-- A text without blanks, comments and line ends in front. -/
def skipFiller (s : List Char) : List Char := (many filler? s).2

/-! ## Strings -/

/-- A given number of hexadecimal digits. -/
def hexDigits? (n : Nat) : Reader Nat := fun s => do
  let ds ← (s.take n).mapM MoveId.hexValue?
  if ds.length = n then some (ds.foldl (fun m d => 16 * m + d) 0, s.drop n) else none

/-- A character by its number. -/
def unicode? (n : Nat) : Reader Char := fun s => do
  let (code, rest) ← hexDigits? n s
  if code < 0xD800 || (0xDFFF < code && code < 0x110000) then some (Char.ofNat code, rest) else none

/-- The character behind a backslash. -/
def escape? : Reader Char
  | 'b' :: s => some ('\x08', s)
  | 't' :: s => some ('\t', s)
  | 'n' :: s => some ('\n', s)
  | 'f' :: s => some ('\x0c', s)
  | 'r' :: s => some ('\r', s)
  | '"' :: s => some ('"', s)
  | '\\' :: s => some ('\\', s)
  | 'u' :: s => unicode? 4 s
  | 'U' :: s => unicode? 8 s
  | _ => none

/-- A character of a quoted string. -/
def quotedChar? : Reader (List Char)
  | '\\' :: s => map (fun c => [c]) escape? s
  | c :: s => if isPlain c && c ≠ '"' then some ([c], s) else none
  | [] => none

/-- A character of a literal string. -/
def literalChar? : Reader (List Char)
  | c :: s => if isPlain c && c ≠ '\x27' then some ([c], s) else none
  | [] => none

/-- A backslash at the end of a line, with all blanks and line ends after it. -/
def continuation? : Reader (List Char)
  | '\\' :: s => do
    let ((), rest) ← newline? (skipSpace s)
    let blank := orElse newline? (orElse (mark ' ') (mark '\t'))
    some ([], (many blank rest).2)
  | _ => none

/-- One line: characters up to the closing quote. -/
def oneLine? (quote : Char) (char : Reader (List Char)) : Reader String := fun s => do
  let (pieces, rest) := many char s
  let ((), rest) ← mark quote rest
  some (String.ofList pieces.flatten, rest)

/-- One or two quotes inside a string of several lines. -/
def innerQuotes? (quote : Char) : Reader (List Char) := fun s =>
  let quotes := s.takeWhile (· = quote)
  if 0 < quotes.length && quotes.length < 3 then some (quotes, s.drop quotes.length) else none

/-- Several lines: characters up to three quotes, before which one or two more may stand. A line end
right after the opening does not count. -/
def severalLines? (quote : Char) (char : Reader (List Char)) : Reader String := fun s =>
  let s := ((newline? s).map Prod.snd).getD s
  let piece := orElse char (orElse (map (fun _ => ['\n']) newline?) (innerQuotes? quote))
  let (pieces, rest) := many piece s
  let quotes := rest.takeWhile (· = quote)
  if 3 ≤ quotes.length && quotes.length ≤ 5 then
    some (String.ofList (pieces.flatten ++ quotes.drop 3), rest.drop quotes.length)
  else none

/-- A string of any kind. -/
def string? : Reader String
  | '"' :: '"' :: '"' :: s => severalLines? '"' (orElse continuation? quotedChar?) s
  | '\x27' :: '\x27' :: '\x27' :: s => severalLines? '\x27' literalChar? s
  | '"' :: s => oneLine? '"' quotedChar? s
  | '\x27' :: s => oneLine? '\x27' literalChar? s
  | _ => none

/-! ## Numbers -/

/-- Further digits, each with at most one underscore in front. -/
def moreDigits (isDigit : Char → Bool) : List Char → List Char × List Char
  | [] => ([], [])
  | '_' :: c :: s =>
    if isDigit c then
      let (ds, rest) := moreDigits isDigit s
      (c :: ds, rest)
    else ([], '_' :: c :: s)
  | c :: s =>
    if isDigit c then
      let (ds, rest) := moreDigits isDigit s
      (c :: ds, rest)
    else ([], c :: s)

/-- Digits with single underscores between them. -/
def digits? (isDigit : Char → Bool) : Reader (List Char)
  | c :: s =>
    if isDigit c then
      let (ds, rest) := moreDigits isDigit s
      some (c :: ds, rest)
    else none
  | [] => none

/-- A sign and digits; a zero in front stands alone. -/
def decimalWhole? : Reader (Bool × List Char) := fun s =>
  let (negative, s) := Number.splitSign s
  match s with
  | '0' :: rest => some ((negative, ['0']), rest)
  | s => map (fun ds => (negative, ds)) (digits? Char.isDigit) s

/-- A whole number of 64 bits. -/
def int64? (negative : Bool) (magnitude : Nat) : Option Int :=
  if negative then (if magnitude ≤ Number.twoTo 63 then some (-magnitude) else none)
  else if magnitude < Number.twoTo 63 then some magnitude
  else none

/-- Digits of a base that is a power of two. -/
def basedWhole? (base : Nat) : Reader Value := fun s => do
  let isDigit (c : Char) := ((MoveId.hexValue? c).map (decide <| · < base)).getD false
  let (ds, rest) ← digits? isDigit s
  let n := ds.foldl (fun n c => base * n + (MoveId.hexValue? c).getD 0) 0
  return (.integer (← int64? false n), rest)

/-- A whole number. -/
def integer? : Reader Value
  | '0' :: 'x' :: s => basedWhole? 16 s
  | '0' :: 'o' :: s => basedWhole? 8 s
  | '0' :: 'b' :: s => basedWhole? 2 s
  | s => do
    let ((negative, ds), rest) ← decimalWhole? s
    return (.integer (← int64? negative (Number.natOfDigits ds)), rest)

/-- A point with digits after it. -/
def fraction? : Reader (List Char)
  | '.' :: s => digits? Char.isDigit s
  | _ => none

/-- A power of ten. -/
def power? : Reader Int
  | c :: s =>
    if c = 'e' || c = 'E' then
      let (negative, s) := Number.splitSign s
      map (fun ds => if negative then -(Number.natOfDigits ds : Int) else Number.natOfDigits ds)
        (digits? Char.isDigit) s
    else none
  | [] => none

/-- A number with a point, a power of ten, or both. One that is too large is refused, unless it is
negative. -/
def decimalFloat? : Reader Value := fun s => do
  let ((negative, ds), s) ← decimalWhole? s
  let (fraction, s) ← optional fraction? s
  let (power, s) ← optional power? s
  if fraction.isNone && power.isNone then none
  else
    let fs := fraction.getD []
    let x := Number.ofDecimal ⟨Number.natOfDigits (ds ++ fs), power.getD 0 - fs.length⟩
    if x.isInf && !negative then none else some (.real (Number.signed negative x), s)

/-- An infinity, or no number. -/
def specialFloat? : Reader Value := fun s =>
  let (negative, s) := Number.splitSign s
  orElse (map (fun _ => .real (Number.signed negative (1 / 0))) (word "inf"))
    (map (fun _ => .real (0 / 0)) (word "nan")) s

/-- A double. -/
def float? : Reader Value := orElse decimalFloat? specialFloat?

/-! ## Times -/

/-- A number of exactly so many digits, between two bounds. -/
def fixedDigits? (count low high : Nat) : Reader Nat := fun s =>
  let ds := s.take count
  let n := Number.natOfDigits ds
  if ds.length = count && ds.all Char.isDigit && low ≤ n && n ≤ high then some (n, s.drop count)
  else none

def isLeapYear (year : Nat) : Bool := year % 4 = 0 && (year % 100 ≠ 0 || year % 400 = 0)

def daysOfMonth (year month : Nat) : Nat :=
  match month with
  | 2 => if isLeapYear year then 29 else 28
  | 4 | 6 | 9 | 11 => 30
  | _ => 31

/-- A day of the calendar. -/
def date? : Reader Unit := fun s => do
  let (year, s) ← fixedDigits? 4 0 9999 s
  let ((), s) ← mark '-' s
  let (month, s) ← fixedDigits? 2 1 12 s
  let ((), s) ← mark '-' s
  let (_, s) ← fixedDigits? 2 1 (daysOfMonth year month) s
  return ((), s)

/-- A part of a second. -/
def secondFraction? : Reader Unit
  | '.' :: s =>
    let ds := s.takeWhile Char.isDigit
    if ds.isEmpty then none else some ((), s.drop ds.length)
  | _ => none

/-- A time of the day; a minute may have a leap second. -/
def time? : Reader Unit := fun s => do
  let (_, s) ← fixedDigits? 2 0 23 s
  let ((), s) ← mark ':' s
  let (_, s) ← fixedDigits? 2 0 59 s
  let ((), s) ← mark ':' s
  let (_, s) ← fixedDigits? 2 0 60 s
  let (_, s) ← optional secondFraction? s
  return ((), s)

/-- The distance from universal time. -/
def offset? : Reader Unit
  | c :: s =>
    if c = 'Z' || c = 'z' then some ((), s)
    else if c = '+' || c = '-' then do
      let (_, s) ← fixedDigits? 2 0 23 s
      let ((), s) ← mark ':' s
      let (_, s) ← fixedDigits? 2 0 59 s
      return ((), s)
    else none
  | [] => none

/-- A time after a day. -/
def timeAfterDate? : Reader Unit
  | c :: s =>
    if c = 'T' || c = 't' || c = ' ' then do
      let ((), s) ← time? s
      let (_, s) ← optional offset? s
      return ((), s)
    else none
  | [] => none

/-- The key under which a time stands in a tree. -/
def dateTimeKey : String := "$__toml_private_datetime"

/-- A day, a time, or both. -/
def dateTime? : Reader Value := fun s => do
  let dated : Reader Unit := fun s => do
    let ((), s) ← date? s
    let (_, s) ← optional timeAfterDate? s
    return ((), s)
  let ((), rest) ← orElse dated time? s
  return (.table [(dateTimeKey, .string (String.ofList (s.take (s.length - rest.length))))], rest)

/-! ## Keys -/

/-- Characters of a key without quotes. -/
def isBareKeyChar (c : Char) : Bool := c.isAlphanum || c = '-' || c = '_'

/-- One name of a key. -/
def simpleKey? : Reader String
  | '"' :: s => oneLine? '"' quotedChar? s
  | '\x27' :: s => oneLine? '\x27' literalChar? s
  | s =>
    let name := s.takeWhile isBareKeyChar
    if name.isEmpty then none else some (String.ofList name, s.drop name.length)

/-- A name with blanks around it. -/
def paddedKey? : Reader String := fun s => do
  let (name, s) ← simpleKey? (skipSpace s)
  return (name, skipSpace s)

/-- The greatest number of names in a key. -/
def keyLimit : Nat := 79

/-- Names with dots between them. -/
def key? : Reader (List String) := fun s => do
  let (names, s) ← separated '.' paddedKey? s
  if names.isEmpty || keyLimit < names.length then none else some (names, s)

end Toolpath.Toml
