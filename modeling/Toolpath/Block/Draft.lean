import Toolpath.Command
import Toolpath.Diagnostic

/-!
# A line in the making

`LineBuilder` before `finish`. A draft collects the words of a line one by one. A word that does not fit
is refused with a `ParseError` and leaves the draft as it was.

Axis and arc words belong to a *word group* (`WordGroup`): each motion code and each `G92` opens one,
and words that stand before any of these open an implicit group under the motion mode in force.

* `WordGroup`: the words of one code, with `has_words` and `accepts_arc_words`.
* `WordGroup.setOnce`, `Draft.choose`: `set_once` and `set_modal`.
* `WordGroup.pushAxis`, `WordGroup.pushArcWord`: `axis_word` and `arc_word`, in the group that
  `current_group` gives (`Draft.currentGroup`).
* `Draft.pushG`, `Draft.pushM`, `Draft.pushWord`: `g_code`, `m_code` and `word`.
* `Draft.push`: `LineBuilder.push`, a draft with one more token or why the token is refused.
-/

namespace Toolpath

/-- What a group of words is for. -/
inductive GroupKind where
  | motion (kind : MotionKind)
  | axisOffset
deriving DecidableEq, Repr

/-- The words that belong to one motion code, or to one `G92`. -/
structure WordGroup where
  kind : GroupKind
  implicit : Bool := false
  axes : AxisWords := .empty
  center : CenterOffsets := {}
  radius : Option Float := none
deriving DecidableEq, Repr

namespace WordGroup

def hasWords (g : WordGroup) : Bool := !g.axes.isEmpty || !g.center.isEmpty || g.radius.isSome

/-- Whether the words of an arc may stand in the group. -/
def takesArcWords (g : WordGroup) : Bool :=
  match g.kind with
  | .motion kind => kind.isArc
  | .axisOffset => false

/-- Fills a place that must be empty. -/
def setOnce (slot : Option Float) (letter : Char) (value : Float) :
    Except BlockError (Option Float) :=
  if slot.isSome then .error (.duplicateWord letter) else .ok (some value)

def pushAxis (g : WordGroup) (axis : Axis) (value : Float) : Except BlockError WordGroup := do
  let slot ← setOnce (g.axes.get axis) axis.letter value
  return { g with axes := g.axes.set axis slot }

def pushArcWord (g : WordGroup) (letter : Char) (value : Float) : Except BlockError WordGroup :=
  if !g.takesArcWords then .error (.unexpectedWord letter "arc words need G2 or G3")
  else match letter with
    | 'I' => do return { g with center := { g.center with i := ← setOnce g.center.i letter value } }
    | 'J' => do return { g with center := { g.center with j := ← setOnce g.center.j letter value } }
    | 'K' => do return { g with center := { g.center with k := ← setOnce g.center.k letter value } }
    | _ => do return { g with radius := ← setOnce g.radius letter value }

end WordGroup

/-- A modal code seen on the line, with its text. -/
structure Chosen (α : Type) where
  value : α
  code : String
deriving DecidableEq, Repr

/-- The words of a line so far. -/
structure Draft where
  /-- The motion mode in force at the start of the line. -/
  motionMode : MotionKind
  blockNumber : Option Nat := none
  comment : Option String := none
  noOp : Bool := false
  feedRate : Option Float := none
  spindleSpeed : Option Float := none
  tool : Option Nat := none
  /-- Spindle, coolant and tool change codes in line order. -/
  machineActions : List Auxiliary := []
  dwell : Bool := false
  dwellSeconds : Option Float := none
  plane : Option (Chosen Plane) := none
  units : Option (Chosen Units) := none
  distanceMode : Option (Chosen DistanceMode) := none
  workOffset : Option (Chosen WorkOffset) := none
  clearAxisOffset : Bool := false
  /-- The groups that no further word can join. -/
  closedGroups : List WordGroup := []
  /-- The group that the next axis or arc word joins. -/
  openGroup : Option WordGroup := none
  /-- Pause and end codes in line order. -/
  programFlow : List Auxiliary := []
deriving DecidableEq, Repr

namespace Draft

/-- The groups of the line in their order. -/
def groups (d : Draft) : List WordGroup := d.closedGroups ++ d.openGroup.toList

/-- Starts a group; the one before it takes no more words. -/
def startGroup (d : Draft) (kind : GroupKind) : Draft :=
  { d with closedGroups := d.groups, openGroup := some { kind } }

/-- The group that an axis or arc word joins: the open one, or an implicit one under the motion mode
in force. -/
def currentGroup (d : Draft) : WordGroup :=
  d.openGroup.getD { kind := .motion d.motionMode, implicit := true }

/-- Chooses a modal value. The same value twice is one choice, two values are a conflict. -/
def choose {α : Type} [DecidableEq α] (group : String) (slot : Option (Chosen α)) (value : α)
    (code : String) : Except BlockError (Option (Chosen α)) :=
  match slot with
  | none => .ok (some ⟨value, code⟩)
  | some first =>
    if first.value = value then .ok (some first)
    else .error (.conflictingCodes group first.code code)

/-! ## Codes -/

/-- The code `92.1`, up to the rounding of its fraction. -/
def isClearCode (value : Float) : Bool := (value - 92.1).abs < 1e-9

/-- A `G` word with a whole number. -/
def pushWholeG (d : Draft) (n : Nat) (raw : String) : Except BlockError Draft :=
  let code := "G" ++ raw
  match MotionKind.ofCode? n, Plane.ofCode? n, WorkOffset.ofCode? n with
  | some kind, _, _ => .ok (d.startGroup (.motion kind))
  | none, some plane, _ => do return { d with plane := ← choose "plane" d.plane plane code }
  | none, none, some slot => do
    return { d with workOffset := ← choose "coordinate system" d.workOffset slot code }
  | none, none, none =>
    match n with
    | 4 => .ok { d with dwell := true }
    | 20 => do return { d with units := ← choose "units" d.units .inch code }
    | 21 => do return { d with units := ← choose "units" d.units .mm code }
    | 90 => do return { d with distanceMode := ← choose "distance" d.distanceMode .absolute code }
    | 91 => do return { d with distanceMode := ← choose "distance" d.distanceMode .incremental code }
    | 92 => .ok (d.startGroup .axisOffset)
    | 94 => .ok { d with noOp := true }
    | _ => .error (.unknownCode 'G' raw)

/-- A `G` word. -/
def pushG (d : Draft) (value : Float) (raw : String) : Except BlockError Draft :=
  if isClearCode value then .ok { d with clearAxisOffset := true }
  else match Number.integer? value with
    | some n => if 0 ≤ n && n ≤ 999 then d.pushWholeG n.toNat raw else .error (.unknownCode 'G' raw)
    | none => .error (.unknownCode 'G' raw)

/-- An `M` word. -/
def pushM (d : Draft) (value : Float) (raw : String) : Except BlockError Draft :=
  let act (a : Auxiliary) : Except BlockError Draft :=
    .ok { d with machineActions := d.machineActions ++ [a] }
  let flow (a : Auxiliary) : Except BlockError Draft :=
    .ok { d with programFlow := d.programFlow ++ [a] }
  match Number.integer? value with
  | some 0 => flow (.pause false)
  | some 1 => flow (.pause true)
  | some 2 => flow .programEnd
  | some 30 => flow .programEnd
  | some 3 => act (.spindle .clockwise)
  | some 4 => act (.spindle .counterClockwise)
  | some 5 => act (.spindle .off)
  | some 6 => act .toolChange
  | some 7 => act (.coolant .mist)
  | some 8 => act (.coolant .flood)
  | some 9 => act (.coolant .off)
  | _ => .error (.unknownCode 'M' raw)

/-! ## Words -/

/-- A number that must not be negative, into a place that must be empty. -/
def setPositive (slot : Option Float) (letter : Char) (value : Float) (reason : String) :
    Except BlockError (Option Float) :=
  if value < 0 then .error (.invalidValue letter value reason)
  else WordGroup.setOnce slot letter value

/-- A tool number is a whole number of 32 bits. -/
def pushTool (d : Draft) (value : Float) : Except BlockError Draft :=
  let invalid : Except BlockError Draft :=
    .error (.invalidValue 'T' value "tool number must be a non-negative integer")
  match Number.integer? value with
  | some n =>
    if 0 ≤ n && n < Number.twoTo 32 then
      if d.tool.isSome then .error (.duplicateWord 'T') else .ok { d with tool := some n.toNat }
    else invalid
  | none => invalid

/-- A word with its address letter. -/
def pushWord (d : Draft) (letter : Char) (value : Float) (raw : String) : Except BlockError Draft :=
  match letter with
  | 'G' => d.pushG value raw
  | 'M' => d.pushM value raw
  | 'F' => do
    return { d with feedRate := ← setPositive d.feedRate letter value "feed rate cannot be negative" }
  | 'S' => do
    return { d with
      spindleSpeed := ← setPositive d.spindleSpeed letter value "spindle speed cannot be negative" }
  | 'T' => d.pushTool value
  | 'P' => do
    return { d with
      dwellSeconds := ← setPositive d.dwellSeconds letter value "dwell time cannot be negative" }
  | 'I' | 'J' | 'K' | 'R' => do
    return { d with openGroup := some (← d.currentGroup.pushArcWord letter value) }
  | _ =>
    match Axis.ofLetter? letter with
    | some axis => do return { d with openGroup := some (← d.currentGroup.pushAxis axis value) }
    | none => .error (.unexpectedWord letter "unsupported address")

/-- A lexical item of the line. The switch for deleted blocks is off, so their marker does nothing. -/
def push (d : Draft) : Token → Except BlockError Draft
  | .word letter value raw _ => d.pushWord letter value raw
  | .blockNumber n => .ok { d with blockNumber := d.blockNumber <|> some n }
  | .comment text => .ok { d with comment := some text }
  | .programMarker => .ok { d with noOp := true }
  | .blockDelete => .ok d
  | .error cause => .error (.lex cause)

end Draft

end Toolpath
