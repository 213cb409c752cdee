import Toolpath.Number.Layout
import Toolpath.Value

/-!
# Writing TOML

`toml::to_string_pretty`. A table is written with its scalars first, then its tables under headers of
their own, each after a blank line. An array of tables is written as one `[[…]]` table for each.

* `write?`: the document of a tree; nothing if a number does not fit into 64 bits.
-/

namespace Toolpath.Toml

/-- A double without exponent, with at least one place. -/
def floatText (x : Float) : String :=
  let s := Number.plain x
  if x.isFinite && !s.toList.contains '.' then s ++ ".0" else s

/-- A character inside a quoted string. -/
def escaped (c : Char) : List Char :=
  match c with
  | '"' => ['\\', '"']
  | '\\' => ['\\', '\\']
  | c => [c]

/-- The text of a scalar. -/
def scalarText? : Value → Option String
  | .bool true => some "true"
  | .bool false => some "false"
  | .integer n => if -(Number.twoTo 63 : Int) ≤ n && n < Number.twoTo 63 then some (toString n) else none
  | .real x => some (floatText x)
  | .string s => some (String.ofList ('"' :: s.toList.flatMap escaped ++ ['"']))
  | _ => none

/-- Whether a tree is written under a header of its own. -/
def isHeaded : Value → Bool
  | .table _ => true
  | .array (.table _ :: _) => true
  | _ => false

/-- The lines of a table's scalars. -/
def scalarLines? (entries : List (String × Value)) : Option (List String) :=
  (entries.filter fun entry => !isHeaded entry.2).mapM fun (key, v) => do
    return key ++ " = " ++ (← scalarText? v)

mutual

/-- The blocks of lines of the tables in a table, in order. -/
def headedBlocks? (path : List String) : List (String × Value) → Option (List (List String))
  | [] => some []
  | (key, .table entries) :: rest => do
    let path' := path ++ [key]
    let own ← scalarLines? entries
    let header := "[" ++ ".".intercalate path' ++ "]"
    let first := if own.isEmpty && !entries.isEmpty then [] else [header :: own]
    let inner ← headedBlocks? path' entries
    let others ← headedBlocks? path rest
    return first ++ inner ++ others
  | (key, .array items) :: rest => do
    let own ← arrayBlocks? (path ++ [key]) items
    let others ← headedBlocks? path rest
    return own ++ others
  | _ :: rest => headedBlocks? path rest

/-- The blocks of an array's tables. -/
def arrayBlocks? (path : List String) : List Value → Option (List (List String))
  | [] => some []
  | .table entries :: rest => do
    let own ← scalarLines? entries
    let header := "[[" ++ ".".intercalate path ++ "]]"
    let inner ← headedBlocks? path entries
    let others ← arrayBlocks? path rest
    return [header :: own] ++ inner ++ others
  | _ :: rest => arrayBlocks? path rest

end

/-- The document of a table. -/
def write? (entries : List (String × Value)) : Option String := do
  let own ← scalarLines? entries
  let blocks ← headedBlocks? [] entries
  let blocks := (if own.isEmpty then [] else [own]) ++ blocks
  return "\n".intercalate (blocks.map fun lines => String.join (lines.map (· ++ "\n")))

end Toolpath.Toml
