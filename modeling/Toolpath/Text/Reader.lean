/-!
# Readers

A reader takes what it reads off the front of a text, or fails.

* `Reader.many`: as many in a row as can be read.
* `Reader.separated`: a list with a mark between its items.
-/

namespace Toolpath.Text

/-- A reader takes what it reads off the front of a text. -/
abbrev Reader (α : Type) := List Char → Option (α × List Char)

namespace Reader

variable {α β : Type}

/-- At most `n` in a row. -/
def upTo (p : Reader α) : Nat → List Char → List α × List Char
  | 0, s => ([], s)
  | n + 1, s =>
    match p s with
    | none => ([], s)
    | some (a, rest) =>
      let (as, rest) := upTo p n rest
      (a :: as, rest)

/-- As many in a row as can be read, if each takes at least one character. -/
def many (p : Reader α) (s : List Char) : List α × List Char := upTo p s.length s

/-- Takes a given character off the front. -/
def mark (c : Char) : Reader Unit
  | d :: s => if d = c then some ((), s) else none
  | [] => none

/-- Takes a given word off the front. -/
def word (w : String) : Reader Unit := fun s =>
  if w.toList.isPrefixOf s then some ((), s.drop w.length) else none

/-- The first of two readers that succeeds. -/
def orElse (p q : Reader α) : Reader α := fun s => (p s).orElse fun _ => q s

/-- What a reader reads, changed. -/
def map (f : α → β) (p : Reader α) : Reader β := fun s => (p s).map fun (a, rest) => (f a, rest)

/-- Nothing, if the reader fails. -/
def optional (p : Reader α) : Reader (Option α) := fun s =>
  match p s with
  | some (a, rest) => some (some a, rest)
  | none => some (none, s)

/-- A list with a mark between its items; it may be empty. -/
def separated (c : Char) (p : Reader α) : Reader (List α) := fun s =>
  match p s with
  | none => some ([], s)
  | some (a, rest) =>
    let (as, rest) := many (fun s => do let ((), s) ← mark c s; p s) rest
    some (a :: as, rest)

end Reader

end Toolpath.Text
