import Toolpath.Number.Binary64

/-!
# Lexical tokens of a line

`Token` and `LexError`. A line of an NC program is a sequence of words (an address letter with a
number), block numbers, comments and markers. Text that is none of these is a token too, so that
scanning never fails.

* `Token`: one token.
* `LexError`: why a piece of text is none, with its message.
-/

namespace Toolpath

/-- Why a piece of a line could not be read. Columns count characters from zero. -/
inductive LexError where
  | unexpectedCharacter (column : Nat) (found : Char)
  | missingValue (column : Nat) (letter : Char)
  | invalidNumber (column : Nat) (letter : Char) (text : String)
deriving DecidableEq, Repr

/-- The message of a lexical error. -/
def LexError.message : LexError → String
  | .unexpectedCharacter column found =>
    s!"Unexpected character '{found}' at column {column}"
  | .missingValue column letter =>
    s!"Address '{letter}' at column {column} has no value"
  | .invalidNumber column letter text =>
    s!"Invalid number '{text}' for address '{letter}' at column {column}"

/-- One lexical item of a line. -/
inductive Token where
  /-- An address letter, in upper case, with its number and the number's text without blanks. -/
  | word (letter : Char) (value : Float) (raw : String) (column : Nat)
  /-- The number that an `N` word gives the block. -/
  | blockNumber (n : Nat)
  /-- A comment without its delimiters. -/
  | comment (text : String)
  /-- The marker `%` at the start or end of a program. -/
  | programMarker
  /-- The marker `/` at the start of a line. -/
  | blockDelete
  /-- Text that is no item. -/
  | error (cause : LexError)
deriving DecidableEq, Repr

end Toolpath
