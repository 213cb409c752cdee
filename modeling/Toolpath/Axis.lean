import Toolpath.Number.Layout

/-!
# Axes and positions

A machine has three linear axes `X`, `Y`, `Z` and three rotary axes `A`, `B`, `C`.

* `Axis`: the six axes, in the order of `Axis.ALL`, with `letter`, `from_letter` and `index`.
* `PerAxis`: one value for each axis, read by `get` and changed by `set`.
* `Position`: a double for each axis, with `offset_by`, `distance_xyz` and its `Display` text.
* `AxisWords`: the axes that a command programs, each with its number, with `is_empty`, `iter`
  (`AxisWords.toPairs`), `merged_over` and its `Display` text.
-/

namespace Toolpath

/-- An axis of the machine. -/
inductive Axis where
  | x | y | z | a | b | c
deriving DecidableEq, Repr

namespace Axis

/-- The axes in their fixed order. -/
def all : List Axis := [.x, .y, .z, .a, .b, .c]

/-- The letter that addresses an axis. -/
def letter : Axis → Char
  | .x => 'X'
  | .y => 'Y'
  | .z => 'Z'
  | .a => 'A'
  | .b => 'B'
  | .c => 'C'

/-- The axis that a letter addresses, in either case. -/
def ofLetter? (letter : Char) : Option Axis :=
  match letter.toUpper with
  | 'X' => some .x
  | 'Y' => some .y
  | 'Z' => some .z
  | 'A' => some .a
  | 'B' => some .b
  | 'C' => some .c
  | _ => none

/-- The place of an axis in the fixed order, from zero. -/
def index : Axis → Nat
  | .x => 0
  | .y => 1
  | .z => 2
  | .a => 3
  | .b => 4
  | .c => 5

end Axis

/-- One value for each axis. -/
structure PerAxis (α : Type) where
  x : α
  y : α
  z : α
  a : α
  b : α
  c : α
deriving BEq, DecidableEq, Repr

namespace PerAxis

variable {α β : Type}

/-- The same value for each axis. -/
def const (v : α) : PerAxis α := ⟨v, v, v, v, v, v⟩

/-- The value that `f` gives for each axis. -/
def ofFn (f : Axis → α) : PerAxis α := ⟨f .x, f .y, f .z, f .a, f .b, f .c⟩

/-- The value of an axis. -/
def get (p : PerAxis α) : Axis → α
  | .x => p.x
  | .y => p.y
  | .z => p.z
  | .a => p.a
  | .b => p.b
  | .c => p.c

/-- Changes the value of one axis. -/
def set (p : PerAxis α) (axis : Axis) (v : α) : PerAxis α :=
  match axis with
  | .x => { p with x := v }
  | .y => { p with y := v }
  | .z => { p with z := v }
  | .a => { p with a := v }
  | .b => { p with b := v }
  | .c => { p with c := v }

/-- The values in the order of the axes. -/
def toList (p : PerAxis α) : List α := [p.x, p.y, p.z, p.a, p.b, p.c]

/-- Six values in the order of the axes. -/
def ofList? : List α → Option (PerAxis α)
  | [x, y, z, a, b, c] => some ⟨x, y, z, a, b, c⟩
  | _ => none

@[simp] theorem get_set_self (p : PerAxis α) (axis : Axis) (v : α) :
    (p.set axis v).get axis = v := by
  cases axis <;> rfl

@[simp] theorem get_set_ne (p : PerAxis α) {axis other : Axis} (v : α) (h : other ≠ axis) :
    (p.set axis v).get other = p.get other := by
  cases axis <;> cases other <;> first | rfl | exact absurd rfl h

@[simp] theorem get_const (v : α) (axis : Axis) : (const v).get axis = v := by
  cases axis <;> rfl

@[simp] theorem get_ofFn (f : Axis → α) (axis : Axis) : (ofFn f).get axis = f axis := by
  cases axis <;> rfl

end PerAxis

/-- A point of the machine's space. -/
abbrev Position := PerAxis Float

namespace Position

/-- The zero of all axes. -/
def origin : Position := .const 0

/-- A point with the rotary axes at zero. -/
def linear (x y z : Float) : Position := ⟨x, y, z, 0, 0, 0⟩

/-- The sum of two positions, axis by axis. -/
def offsetBy (p q : Position) : Position := .ofFn fun axis => p.get axis + q.get axis

/-- The distance of two positions on the linear axes. -/
def distance (p q : Position) : Float :=
  let dx := p.x - q.x
  let dy := p.y - q.y
  let dz := p.z - q.z
  (dx * dx + dy * dy + dz * dz).sqrt

/-- Whether every axis has a finite value. -/
def isFinite (p : Position) : Bool := p.toList.all Float.isFinite

/-- Each axis with three places. -/
def text (p : Position) : String :=
  " ".intercalate (Axis.all.map fun axis =>
    axis.letter.toString ++ ":" ++ Number.fixed 3 (p.get axis))

end Position

/-- The axes that a command programs, each with its number. -/
abbrev AxisWords := PerAxis (Option Float)

namespace AxisWords

/-- No axis is programmed. -/
def empty : AxisWords := .const none

/-- Whether no axis is programmed. -/
def isEmpty (w : AxisWords) : Bool := w.toList.all Option.isNone

/-- The programmed axes in their fixed order. -/
def toPairs (w : AxisWords) : List (Axis × Float) :=
  Axis.all.filterMap fun axis => (w.get axis).map fun v => (axis, v)

/-- Programmed axes replace those of a position, the others keep theirs. -/
def mergedOver (w : AxisWords) (base : Position) : Position :=
  .ofFn fun axis => (w.get axis).getD (base.get axis)

/-- The words as they are written on a line. -/
def text (w : AxisWords) : String :=
  " ".intercalate (w.toPairs.map fun (axis, v) => axis.letter.toString ++ Number.plain v)

end AxisWords

end Toolpath
