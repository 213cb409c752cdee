import Toolpath.Value

/-!
# Tables of a TOML document

A table comes about in one of several ways, and each can be added to only in its own way: a header
opens a table once, dotted keys add to tables that dotted keys made, an inline table is closed, and
`[[…]]` adds a table to an array.

* `Node`: a table in the making, with how it came about.
* `Node.descend?`: works on the table at the end of a path, making tables on the way.
* `Node.insertAt?`: enters a value under a dotted key.
* `Document`: a document in the making; `openTable?`, `openArrayTable?`, `enter?`, `finish?`.
-/

namespace Toolpath.Toml

/-- How a table came about. -/
structure Origin where
  /-- It was only named on the way to another table. -/
  implicit : Bool
  /-- It was named by a dotted key. -/
  dotted : Bool
deriving DecidableEq, Repr

/-- A tree in the making. -/
inductive Node where
  | value (v : Value)
  | table (origin : Origin) (entries : List (String × Node))
  /-- An array of tables. -/
  | tables (items : List (List (String × Node)))
deriving Inhabited

/-- The entries of a table. -/
abbrev Entries := List (String × Node)

/-- A table that a header opened. -/
def headed : Origin := { implicit := false, dotted := false }

namespace Entries

/-- The entry under a key. -/
def get? (entries : Entries) (key : String) : Option Node :=
  (entries.find? fun entry => entry.1 = key).map Prod.snd

/-- Changes the entry under a key, or adds it at the end. -/
def put (entries : Entries) (key : String) (node : Node) : Entries :=
  if entries.any fun entry => entry.1 = key then
    entries.map fun entry => if entry.1 = key then (key, node) else entry
  else entries ++ [(key, node)]

def erase (entries : Entries) (key : String) : Entries := entries.filter fun entry => entry.1 ≠ key

end Entries

/-- A table with how it came about. -/
structure Place where
  origin : Origin
  entries : Entries

/-- Works on the table at the end of a path. Tables that are missing on the way are made; a value in
the way, or under a dotted key a table that was not made on the way to another, is refused. Of an array
of tables the last one is meant. -/
def descend? {α : Type} (dotted : Bool) (act : Place → Option (α × Entries)) :
    List String → Place → Option (α × Entries)
  | [], place => act place
  | key :: path, place =>
    match place.entries.get? key with
    | none => do
      let origin : Origin := { implicit := true, dotted }
      let (a, entries) ← descend? dotted act path ⟨origin, []⟩
      return (a, place.entries.put key (.table origin entries))
    | some (.value _) => none
    | some (.table origin entries) => do
      if dotted && !origin.implicit then none
      else
        let (a, entries) ← descend? dotted act path ⟨origin, entries⟩
        return (a, place.entries.put key (.table origin entries))
    | some (.tables items) =>
      match items.getLast? with
      | none => none
      | some last => do
        let (a, entries) ← descend? dotted act path ⟨headed, last⟩
        return (a, place.entries.put key (.tables (items.dropLast ++ [entries])))

/-- Enters a value under a key that is not taken. The table must have been made by dotted keys exactly
if the key came with a path. -/
def enterValue? (dotted : Bool) (key : String) (v : Value) (place : Place) :
    Option (Unit × Entries) :=
  if place.origin.dotted ≠ dotted || (place.entries.get? key).isSome then none
  else some ((), place.entries ++ [(key, .value v)])

/-- Enters a value under a dotted key. -/
def insertAt? (place : Place) (path : List String) (v : Value) : Option Place :=
  match path.getLast? with
  | none => none
  | some key => do
    let front := path.dropLast
    let ((), entries) ← descend? true (enterValue? (!front.isEmpty) key v) front place
    return { place with entries }

/-! ## Trees -/

mutual

/-- The finished tree. -/
def Node.toValue : Node → Value
  | .value v => v
  | .table _ entries => .table (entriesToValue entries)
  | .tables items => .array (itemsToValue items)

def entriesToValue : List (String × Node) → List (String × Value)
  | [] => []
  | (key, node) :: rest => (key, node.toValue) :: entriesToValue rest

def itemsToValue : List (List (String × Node)) → List Value
  | [] => []
  | entries :: rest => .table (entriesToValue entries) :: itemsToValue rest

end

/-- The tree of an inline table, from its entries in order. -/
def inlineTable? (entries : List (List String × Value)) : Option Value := do
  let place ← entries.foldlM (fun place (path, v) => insertAt? place path v) ⟨headed, []⟩
  return .table (entriesToValue place.entries)

/-! ## Documents -/

/-- The table that entries go to at present, with the header that opened it. -/
structure Current where
  path : List String := []
  inArray : Bool := false
  entries : Entries := []

/-- A document in the making: the finished tables, and the present one. -/
structure Document where
  root : Entries := []
  current : Current := {}

namespace Document

/-- Works on the table that holds the last name of a header's path. -/
def atParent? {α : Type} (root : Entries) (path : List String)
    (act : String → Place → Option (α × Entries)) : Option (α × Entries) := do
  let key ← path.getLast?
  descend? false (act key) path.dropLast ⟨headed, root⟩

/-- Enters a value into the present table. -/
def enter? (d : Document) (path : List String) (v : Value) : Option Document := do
  let place ← insertAt? ⟨headed, d.current.entries⟩ path v
  return { d with current := { d.current with entries := place.entries } }

/-- Puts the present table to the finished ones. -/
def close? (d : Document) : Option Entries :=
  let c := d.current
  if c.path.isEmpty then some c.entries
  else (atParent? d.root c.path fun key place =>
    match c.inArray, place.entries.get? key with
    | true, none => some ((), place.entries.put key (.tables [c.entries]))
    | true, some (.tables items) => some ((), place.entries.put key (.tables (items ++ [c.entries])))
    | false, none => some ((), place.entries.put key (.table headed c.entries))
    | _, _ => none).map Prod.snd

/-- Opens the table of a header. One that was only named on the way to another, and not by a dotted
key, keeps its entries; any other entry of the name is refused. -/
def openTable? (d : Document) (path : List String) : Option Document := do
  let root ← d.close?
  let (entries, root) ← atParent? root path fun key place =>
    match place.entries.get? key with
    | none => some ([], place.entries)
    | some (.table origin entries) =>
      if origin.implicit && !origin.dotted then some (entries, place.entries.erase key) else none
    | some _ => none
  return { root, current := { path, entries } }

/-- Opens a further table of an array. -/
def openArrayTable? (d : Document) (path : List String) : Option Document := do
  let root ← d.close?
  let ((), root) ← atParent? root path fun key place =>
    match place.entries.get? key with
    | none | some (.tables _) => some ((), place.entries)
    | some _ => none
  return { root, current := { path, inArray := true } }

/-- The tree of the whole document. -/
def finish? (d : Document) : Option Value := d.close?.map fun root => .table (entriesToValue root)

end Document

end Toolpath.Toml
