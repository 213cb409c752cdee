import Toolpath.Text.Blank
import Toolpath.Number.Reading
import Toolpath.Token

/-!
# Scanning a line

`Tokenizer` and `tokenize`. The scanner walks over the characters of a line and cuts off one token after
the other. Each token takes at least one character, so scanning ends.

* `Scanner`: `Tokenizer`, what is left of a line and how many characters were taken.
* `Scanner.commentText`, `Scanner.numberText`, `Scanner.wordToken`: `comment`, `number_text` and `word`.
* `Scanner.next?`: `Tokenizer.next`, the next token and the scanner after it.
* `next?_rest_length`: what is left after a token is shorter.
* `tokens`: `tokenize`, all tokens of a line.
-/

namespace Toolpath

open Text Number

/-- A place on a line: what is left of it, and whether an item was seen before. -/
structure Scanner where
  rest : List Char
  column : Nat := 0
  fresh : Bool := true
deriving DecidableEq, Repr

namespace Scanner

/-- The scanner at the start of a line. -/
def ofLine (line : String) : Scanner := { rest := line.toList }

/-- Moves on to a later rest of the line. -/
def moveTo (s : Scanner) (rest : List Char) : Scanner :=
  { s with rest, column := s.column + (s.rest.length - rest.length) }

/-! ## Numbers -/

/-- A digit or a point. -/
def isNumeral (c : Char) : Bool := c.isDigit || c = '.'

/-- The digits and points in front, and what follows them. Blanks that begin with a space or a tab may
stand between two of them; blanks after the last are not taken. -/
def numerals : List Char → List Char × List Char
  | [] => ([], [])
  | c :: s =>
    if isNumeral c then
      let (ds, rest) := numerals s
      (c :: ds, rest)
    else if c = ' ' || c = '\t' then
      match _h : skipBlanks s with
      | [] => ([], c :: s)
      | d :: r =>
        if isNumeral d then
          let (ds, rest) := numerals r
          (d :: ds, rest)
        else ([], c :: s)
    else ([], c :: s)
termination_by s => s.length
decreasing_by
  · simp
  · have := skipBlanks_length_le s
    rw [_h] at this
    simp only [List.length_cons] at this ⊢
    omega

/-- The text of a number without its blanks, an optional sign first, and what follows it. -/
def numberText (s : List Char) : List Char × List Char :=
  match skipBlanks s with
  | [] => ([], [])
  | c :: r =>
    if c = '+' || c = '-' then
      let (ds, rest) := numerals r
      (c :: ds, rest)
    else numerals (c :: r)

/-- The finite double that a number's text stands for. -/
def numberValue? (text : List Char) : Option Float :=
  let (negative, digits) := splitSign text
  match decimal? digits with
  | none => none
  | some d =>
    let value := signed negative (ofDecimal d)
    if value.isFinite then some value else none

/-! ## Items -/

/-- The item of an address letter: the number behind it decides. An `N` word numbers the block and
needs a whole number of 32 bits. -/
def wordToken (letter : Char) (column : Nat) (text : List Char) : Token :=
  if text = [] || text = ['+'] || text = ['-'] then .error (.missingValue column letter)
  else
    let invalid : Token := .error (.invalidNumber column letter (String.ofList text))
    match numberValue? text with
    | none => invalid
    | some value =>
      if letter = 'N' then
        match integer? value with
        | some n => if 0 ≤ n && n < Number.twoTo 32 then .blockNumber n.toNat else invalid
        | none => invalid
      else .word letter value (String.ofList text) column

/-- The text of a comment whose opener was cut off: a bracket closes at the first closing bracket, and
all else runs to the end of the line. -/
def commentText (opener : Char) (s : List Char) : String :=
  String.ofList (trim (if opener = '(' then s.takeWhile (· ≠ ')') else s))

/-- The item at the character `c`, and what is left of the line after it. -/
def item (fresh : Bool) (column : Nat) (c : Char) (s : List Char) : Token × List Char :=
  if c = '(' || c = ';' then (.comment (commentText c s), [])
  else if c = '%' then (.programMarker, s)
  else if c = '/' && fresh then (.blockDelete, s)
  else if c.isAlpha then
    let (text, rest) := numberText s
    (wordToken c.toUpper column text, rest)
  else (.error (.unexpectedCharacter column c), s)

/-- The next item of the line, and the scanner after it. -/
def next? (s : Scanner) : Option (Token × Scanner) :=
  let start := s.moveTo (skipBlanks s.rest)
  match start.rest with
  | [] => none
  | c :: r =>
    let (token, rest) := item start.fresh start.column c r
    some (token, { start.moveTo rest with fresh := false })

/-! ## Progress -/

theorem numerals_rest_length_le (s : List Char) : (numerals s).2.length ≤ s.length := by
  fun_induction numerals s with
  | case1 => simp
  | case2 c s hc ds rest h ih =>
    simp only [h] at ih
    exact Nat.le_succ_of_le ih
  | case3 c s hc hb h => exact Nat.le_refl _
  | case4 c s hc hb d r h hd ds rest hr ih =>
    have hs := skipBlanks_length_le s
    rw [h] at hs
    simp only [hr] at ih
    simp only [List.length_cons] at hs ⊢
    omega
  | case5 c s hc hb d r h hd => exact Nat.le_refl _
  | case6 c s hc hb => exact Nat.le_refl _

theorem numberText_rest_length_le (s : List Char) : (numberText s).2.length ≤ s.length := by
  have hs := skipBlanks_length_le s
  unfold numberText
  split
  · simp
  · next c r h =>
    rw [h] at hs
    simp only [List.length_cons] at hs
    split
    · have := numerals_rest_length_le r
      simp only
      omega
    · have := numerals_rest_length_le (c :: r)
      simp only [List.length_cons] at this ⊢
      omega

theorem item_rest_length_le (fresh : Bool) (column : Nat) (c : Char) (s : List Char) :
    (item fresh column c s).2.length ≤ s.length := by
  have := numberText_rest_length_le s
  unfold item
  split
  · simp
  · split
    · exact Nat.le_refl _
    · split
      · exact Nat.le_refl _
      · split
        · exact this
        · exact Nat.le_refl _

/-- **Progress.** What is left of the line after an item is shorter than before. -/
theorem next?_rest_length {s t : Scanner} {token : Token} (h : s.next? = some (token, t)) :
    t.rest.length < s.rest.length := by
  have hs := skipBlanks_length_le s.rest
  unfold next? at h
  simp only [moveTo] at h
  split at h
  · cases h
  · next c r hr =>
    simp only [Option.some.injEq, Prod.mk.injEq] at h
    obtain ⟨-, rfl⟩ := h
    rw [hr] at hs
    have := item_rest_length_le s.fresh (s.column + (s.rest.length - (skipBlanks s.rest).length)) c r
    simp only [List.length_cons] at hs ⊢
    omega

/-- The items that are left on the line. -/
def toList (s : Scanner) : List Token :=
  match _h : s.next? with
  | none => []
  | some (token, t) => token :: toList t
termination_by s.rest.length
decreasing_by exact next?_rest_length _h

end Scanner

/-- The lexical items of a line. -/
def tokens (line : String) : List Token := (Scanner.ofLine line).toList

end Toolpath
