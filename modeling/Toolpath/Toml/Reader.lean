import Toolpath.Toml.Scalar
import Toolpath.Toml.Table

/-!
# Reading TOML

`toml::from_str` up to the tree of the document.

* `value?`: a value; arrays and inline tables may be nested up to a limit.
* `read?`: the tree of a document, entry by entry and header by header.
-/

namespace Toolpath.Toml

open Text Text.Reader

/-! ## Values -/

/-- An item of an array, with what may stand around it. -/
def arrayItem? (value : Reader Value) : Reader Value := fun s => do
  let (v, s) ← value (skipFiller s)
  return (v, skipFiller s)

/-- An array whose opening bracket was cut off; a comma may follow the last item. -/
def array? (value : Reader Value) : Reader Value := fun s => do
  let (items, s) ← separated ',' (arrayItem? value) s
  let s := if items.isEmpty then s else (((mark ',' s).map Prod.snd).getD s)
  let ((), s) ← mark ']' (skipFiller s)
  return (.array items, s)

/-- A key with its value. -/
def keyValue? (value : Reader Value) : Reader (List String × Value) := fun s => do
  let (path, s) ← key? s
  let ((), s) ← mark '=' s
  let (v, s) ← value (skipSpace s)
  return ((path, v), skipSpace s)

/-- An inline table whose opening brace was cut off; no comma may follow the last entry. -/
def inline? (value : Reader Value) : Reader Value := fun s => do
  let (entries, s) ← separated ',' (keyValue? value) s
  let ((), s) ← mark '\x7d' (skipSpace s)
  return (← inlineTable? entries, s)

/-- A value that holds no others. -/
def scalar? : Reader Value
  | 't' :: s => map (fun _ => .bool true) (word "rue") s
  | 'f' :: s => map (fun _ => .bool false) (word "alse") s
  | s =>
    orElse (map .string string?) (orElse dateTime? (orElse float? integer?)) s

/-- A value with at most so many arrays and inline tables inside each other. -/
def value? : Nat → Reader Value
  | 0, '[' :: _ => none
  | 0, '\x7b' :: _ => none
  | depth + 1, '[' :: s => array? (value? depth) s
  | depth + 1, '\x7b' :: s => inline? (value? depth) s
  | _, s => scalar? s

/-- How deep arrays and inline tables may be nested. -/
def nestingLimit : Nat := 80

/-! ## Documents -/

/-- What a document says in one place. -/
inductive Statement where
  | entry (path : List String) (v : Value)
  | table (path : List String)
  | arrayTable (path : List String)
  /-- A blank line or a comment. -/
  | nothing

/-- A statement with the end of its line, blanks in front allowed. -/
def statement? : Reader Statement := fun s =>
  match skipSpace s with
  | [] => none
  | '[' :: '[' :: s => do
    let (path, s) ← key? s
    let ((), s) ← word "]]" s
    return (.arrayTable path, ← lineEnd? s)
  | '[' :: s => do
    let (path, s) ← key? s
    let ((), s) ← mark ']' s
    return (.table path, ← lineEnd? s)
  | c :: s =>
    if c = '#' || c = '\n' || c = '\r' then do return (.nothing, ← lineEnd? (c :: s))
    else do
      let ((path, v), s) ← keyValue? (value? nestingLimit) (c :: s)
      return (.entry path v, ← lineEnd? s)

/-- Adds a statement to a document. -/
def Document.add? (d : Document) : Statement → Option Document
  | .entry path v => d.enter? path v
  | .table path => d.openTable? path
  | .arrayTable path => d.openArrayTable? path
  | .nothing => some d

/-- A text without a byte order mark in front. -/
def dropOrderMark : List Char → List Char
  | '\ufeff' :: s => s
  | s => s

/-- The tree of a document. -/
def read? (text : String) : Option Value := do
  let (statements, rest) := many statement? (dropOrderMark text.toList)
  if (skipSpace rest).isEmpty then
    let d ← statements.foldlM Document.add? {}
    d.finish?
  else none

end Toolpath.Toml
