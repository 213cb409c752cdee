import Toolpath.Number.Power

/-!
# Value trees

The common form of data files, between `serde` records and their texts: scalars, arrays and tables.
Tables keep the order of their entries and may, as read, hold a key twice.

* `Value`: a tree.
* `Dialect`: what the format that a tree comes from admits.
* `Value.fields?`: a record's fields, taken from a table by name or from an array by place.
* `Value.variant?`: the case of a sum, written as its name or as a table with that one key.
* `nat?`, `float?`, `string?`, `bool?`, `array?`, `option?`: a tree read as one type.
-/

namespace Toolpath

/-- A tree of data. -/
inductive Value where
  | null
  | bool (b : Bool)
  | integer (n : Int)
  | real (x : Float)
  /-- A well-formed piece that nothing here can hold, such as a number above all doubles. It may stand
  where it is not asked for. -/
  | unheld
  | string (s : String)
  | array (items : List Value)
  | table (entries : List (String × Value))
deriving Repr, Inhabited

namespace Value

/-- The values of a key, in order. -/
def valuesOf (key : String) (entries : List (String × Value)) : List Value :=
  (entries.filter fun entry => entry.1 = key).map Prod.snd

/-- Whether a record may lack fields. -/
inductive Completeness where
  | full
  | defaulted
deriving DecidableEq, Repr

/-- The field of a given name: a key that occurs twice is refused. -/
def field? (entries : List (String × Value)) (name : String) : Option (Option Value) :=
  match valuesOf name entries with
  | [] => some none
  | [v] => some (some v)
  | _ => none

/-- What the format that a tree comes from admits. -/
structure Dialect where
  /-- What may stand under the name of a case that carries nothing. -/
  isUnit : Value → Bool
  /-- Whether an array may go on after the last item that is asked for. -/
  ignoresExtraItems : Bool

/-- A case that carries nothing carries `null`, and arrays have their exact length. -/
def Dialect.json : Dialect where
  isUnit
    | .null => true
    | _ => false
  ignoresExtraItems := false

/-- A case that carries nothing carries an empty table or array, and arrays may go on. -/
def Dialect.toml : Dialect where
  isUnit
    | .table [] | .array [] => true
    | _ => false
  ignoresExtraItems := true

/-- The first `n` items of an array, or all if there are fewer. -/
def Dialect.firstItems? (d : Dialect) (n : Nat) (items : List Value) : Option (List Value) :=
  if items.length ≤ n || d.ignoresExtraItems then some (items.take n) else none

/-- The fields of a record, `none` where one is missing. A table gives them by name and may hold
other keys; an array gives them by place. -/
def fields? (d : Dialect) (completeness : Completeness) (names : List String) :
    Value → Option (List (Option Value))
  | .table entries => names.mapM (field? entries)
  | .array items => do
    let items ← d.firstItems? names.length items
    if completeness = .full && items.length < names.length then none
    else return items.map some ++ List.replicate (names.length - items.length) none
  | _ => none

/-- The name of a case, and what it carries. -/
def variant? : Value → Option (String × Option Value)
  | .string name => some (name, none)
  | .table [(name, payload)] => some (name, some payload)
  | _ => none

/-- A case that carries nothing, by its name. -/
def named? {α : Type} (d : Dialect) (all : List α) (name : α → String) (v : Value) : Option α :=
  match v.variant? with
  | some (word, none) => all.find? fun a => name a = word
  | some (word, some payload) =>
    if d.isUnit payload then all.find? fun a => name a = word else none
  | none => none

def bool? : Value → Option Bool
  | .bool b => some b
  | _ => none

def string? : Value → Option String
  | .string s => some s
  | _ => none

/-- A natural number below a bound. -/
def natBelow? (bound : Nat) : Value → Option Nat
  | .integer n => if 0 ≤ n && n < bound then some n.toNat else none
  | _ => none

/-- A natural number of 64 bits. -/
def nat? (v : Value) : Option Nat := natBelow? (Number.twoTo 64) v

/-- A double; whole numbers are rounded to one. -/
def float? : Value → Option Float
  | .integer n => some (Float.ofInt n)
  | .real x => some x
  | _ => none

def array? {α : Type} (item : Value → Option α) : Value → Option (List α)
  | .array items => items.mapM item
  | _ => none

/-- `null` for nothing. -/
def option? {α : Type} (item : Value → Option α) : Value → Option (Option α)
  | .null => some none
  | v => (item v).map some

/-- A field that must be there. -/
def need? {α : Type} (item : Value → Option α) : Option Value → Option α
  | some v => item v
  | none => none

/-- A field that may be missing, and then is nothing. -/
def optional? {α : Type} (item : Value → Option α) : Option Value → Option (Option α)
  | some v => option? item v
  | none => some none

/-- A field that may be missing, and then has its default. -/
def orDefault? {α : Type} (default : α) (item : Value → Option α) : Option Value → Option α
  | some v => item v
  | none => some default

/-- A number that may be missing. -/
def ofOption {α : Type} (item : α → Value) : Option α → Value
  | some a => item a
  | none => .null

/-- A natural number as a tree. -/
def nat (n : Nat) : Value := .integer n

end Value

end Toolpath
