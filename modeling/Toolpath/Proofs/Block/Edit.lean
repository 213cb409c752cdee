import Toolpath.Proofs.Block.Grouping

/-!
# Slots of a draft

`LineBuilder.push`, token by token. Every token of a line concerns one slot of the draft: it reads what
the slot holds, and puts something else there or is refused. Which slot that is depends on the item
alone.

* `Slot`, `Draft.content`, `Draft.put`: the slots of a draft, read and written one by one.
* `Edit`, `Token.edit`: what an item asks for. `Edit.change`: what becomes of the slot (`Token.slot`).
* `Draft.push_eq_apply`: taking an item is applying its edit.
* `Draft.step`, `Draft.refusal?`: the draft after an item, and the problem with it.
  `Draft.pushAll_cons`, `Draft.pushAll_append`: a whole line, step by step.
* `Draft.content_step_ne`: an item leaves all slots but its own.
-/

namespace Toolpath

/-! ## Slots -/

/-- The places of a draft. Two items of one slot depend on each other's order. -/
inductive Slot where
  /-- Motion codes, `G92`, and axis and arc words. -/
  | groups
  | feedRate | spindleSpeed | tool
  /-- The time of a dwell, and its code. -/
  | dwellSeconds | dwell
  | plane | units | distanceMode | workOffset | clearAxisOffset | noOp
  /-- Spindle, coolant and tool change codes. -/
  | machine
  /-- Pause and end codes. -/
  | flow
  | blockNumber | comment
  /-- The marker of a block that may be deleted. -/
  | deletion
  /-- Items that are refused whatever the line holds. -/
  | refused
deriving DecidableEq, Repr

/-- The groups of a line, and the mode that an implicit one follows. -/
structure Groups where
  motionMode : MotionKind
  closed : List WordGroup
  current : Option WordGroup
deriving DecidableEq, Repr

/-- What a slot holds. -/
abbrev Slot.Content : Slot → Type
  | .groups => Groups
  | .feedRate | .spindleSpeed | .dwellSeconds => Option Float
  | .tool | .blockNumber => Option Nat
  | .dwell | .clearAxisOffset | .noOp => Bool
  | .plane => Option (Chosen Plane)
  | .units => Option (Chosen Units)
  | .distanceMode => Option (Chosen DistanceMode)
  | .workOffset => Option (Chosen WorkOffset)
  | .machine | .flow => List Auxiliary
  | .comment => Option String
  | .deletion | .refused => Unit

namespace Draft

/-- What a slot of a draft holds. -/
def content (d : Draft) : (slot : Slot) → slot.Content
  | .groups => ⟨d.motionMode, d.closedGroups, d.openGroup⟩
  | .feedRate => d.feedRate
  | .spindleSpeed => d.spindleSpeed
  | .tool => d.tool
  | .dwellSeconds => d.dwellSeconds
  | .dwell => d.dwell
  | .plane => d.plane
  | .units => d.units
  | .distanceMode => d.distanceMode
  | .workOffset => d.workOffset
  | .clearAxisOffset => d.clearAxisOffset
  | .noOp => d.noOp
  | .machine => d.machineActions
  | .flow => d.programFlow
  | .blockNumber => d.blockNumber
  | .comment => d.comment
  | .deletion | .refused => ()

/-- A draft with something else in a slot. -/
def put (d : Draft) : (slot : Slot) → slot.Content → Draft
  | .groups, g => { d with motionMode := g.motionMode, closedGroups := g.closed, openGroup := g.current }
  | .feedRate, v => { d with feedRate := v }
  | .spindleSpeed, v => { d with spindleSpeed := v }
  | .tool, v => { d with tool := v }
  | .dwellSeconds, v => { d with dwellSeconds := v }
  | .dwell, v => { d with dwell := v }
  | .plane, v => { d with plane := v }
  | .units, v => { d with units := v }
  | .distanceMode, v => { d with distanceMode := v }
  | .workOffset, v => { d with workOffset := v }
  | .clearAxisOffset, v => { d with clearAxisOffset := v }
  | .noOp, v => { d with noOp := v }
  | .machine, v => { d with machineActions := v }
  | .flow, v => { d with programFlow := v }
  | .blockNumber, v => { d with blockNumber := v }
  | .comment, v => { d with comment := v }
  | .deletion, _ | .refused, _ => d

@[simp] theorem content_put_self (d : Draft) (slot : Slot) (v : slot.Content) :
    (d.put slot v).content slot = v := by
  cases slot <;> rfl

@[simp] theorem content_put_ne (d : Draft) {slot other : Slot} (h : other ≠ slot) (v : slot.Content) :
    (d.put slot v).content other = d.content other := by
  cases slot <;> cases other <;> first | rfl | exact absurd rfl h

@[simp] theorem put_content (d : Draft) (slot : Slot) : d.put slot (d.content slot) = d := by
  cases slot <;> rfl

/-- A draft is what its slots hold. -/
theorem ext_content {d d' : Draft} (h : ∀ slot, d.content slot = d'.content slot) : d = d' := by
  obtain ⟨hmode, hclosed, hopen⟩ := Groups.mk.inj (h .groups)
  cases d
  cases d'
  rw [Draft.mk.injEq]
  exact ⟨hmode, h .blockNumber, h .comment, h .noOp, h .feedRate, h .spindleSpeed, h .tool, h .machine,
    h .dwell, h .dwellSeconds, h .plane, h .units, h .distanceMode, h .workOffset, h .clearAxisOffset,
    hclosed, hopen, h .flow⟩

end Draft

/-! ## Edits -/

/-- What an item asks for. -/
inductive Edit where
  | openGroup (kind : GroupKind)
  | joinGroup (word : GroupWord)
  | feedRate (value : Float)
  | spindleSpeed (value : Float)
  | tool (value : Float)
  | dwellSeconds (value : Float)
  | dwell
  | plane (value : Plane) (code : String)
  | units (value : Units) (code : String)
  | distanceMode (value : DistanceMode) (code : String)
  | workOffset (value : WorkOffset) (code : String)
  | clearAxisOffset
  | noOp
  | machine (action : Auxiliary)
  | flow (action : Auxiliary)
  | blockNumber (n : Nat)
  | comment (text : String)
  | deletion
  | refuse (cause : BlockError)
deriving DecidableEq, Repr

namespace Edit

def slot : Edit → Slot
  | .openGroup _ | .joinGroup _ => .groups
  | .feedRate _ => .feedRate
  | .spindleSpeed _ => .spindleSpeed
  | .tool _ => .tool
  | .dwellSeconds _ => .dwellSeconds
  | .dwell => .dwell
  | .plane _ _ => .plane
  | .units _ _ => .units
  | .distanceMode _ _ => .distanceMode
  | .workOffset _ _ => .workOffset
  | .clearAxisOffset => .clearAxisOffset
  | .noOp => .noOp
  | .machine _ => .machine
  | .flow _ => .flow
  | .blockNumber _ => .blockNumber
  | .comment _ => .comment
  | .deletion => .deletion
  | .refuse _ => .refused

/-- The edit of a `G` word with a whole number. -/
def ofWholeG (n : Nat) (raw : String) : Edit :=
  let code := "G" ++ raw
  match MotionKind.ofCode? n, Plane.ofCode? n, WorkOffset.ofCode? n with
  | some kind, _, _ => .openGroup (.motion kind)
  | none, some chosen, _ => .plane chosen code
  | none, none, some chosen => .workOffset chosen code
  | none, none, none =>
    match n with
    | 4 => .dwell
    | 20 => .units .inch code
    | 21 => .units .mm code
    | 90 => .distanceMode .absolute code
    | 91 => .distanceMode .incremental code
    | 92 => .openGroup .axisOffset
    | 94 => .noOp
    | _ => .refuse (.unknownCode 'G' raw)

/-- The edit of a `G` word. -/
def ofG (value : Float) (raw : String) : Edit :=
  if Draft.isClearCode value then .clearAxisOffset
  else match Number.integer? value with
    | some n => if 0 ≤ n && n ≤ 999 then ofWholeG n.toNat raw else .refuse (.unknownCode 'G' raw)
    | none => .refuse (.unknownCode 'G' raw)

/-- The edit of an `M` word. -/
def ofM (value : Float) (raw : String) : Edit :=
  match Number.integer? value with
  | some 0 => .flow (.pause false)
  | some 1 => .flow (.pause true)
  | some 2 => .flow .programEnd
  | some 30 => .flow .programEnd
  | some 3 => .machine (.spindle .clockwise)
  | some 4 => .machine (.spindle .counterClockwise)
  | some 5 => .machine (.spindle .off)
  | some 6 => .machine .toolChange
  | some 7 => .machine (.coolant .mist)
  | some 8 => .machine (.coolant .flood)
  | some 9 => .machine (.coolant .off)
  | _ => .refuse (.unknownCode 'M' raw)

/-- The edit of a word with its address letter. -/
def ofWord (letter : Char) (value : Float) (raw : String) : Edit :=
  match letter with
  | 'G' => ofG value raw
  | 'M' => ofM value raw
  | 'F' => .feedRate value
  | 'S' => .spindleSpeed value
  | 'T' => .tool value
  | 'P' => .dwellSeconds value
  | _ =>
    match Address.ofLetter? letter with
    | some address => .joinGroup { address, value }
    | none => .refuse (.unexpectedWord letter "unsupported address")

/-- A tool number is a whole number of 32 bits, into a place that must be empty. -/
def setTool (slot : Option Nat) (value : Float) : Except BlockError (Option Nat) :=
  let invalid : Except BlockError (Option Nat) :=
    .error (.invalidValue 'T' value "tool number must be a non-negative integer")
  match Number.integer? value with
  | some n =>
    if 0 ≤ n && n < Number.twoTo 32 then
      if slot.isSome then .error (.duplicateWord 'T') else .ok (some n.toNat)
    else invalid
  | none => invalid

/-- What becomes of the slot, or why the edit is refused. -/
def change : (e : Edit) → e.slot.Content → Except BlockError e.slot.Content
  | .openGroup kind, g =>
    .ok { g with closed := g.closed ++ g.current.toList, current := some { kind } }
  | .joinGroup word, g =>
    ((g.current.getD { kind := .motion g.motionMode, implicit := true }).pushAt word).map fun group =>
      { g with current := some group }
  | .feedRate value, v => Draft.setPositive v 'F' value "feed rate cannot be negative"
  | .spindleSpeed value, v => Draft.setPositive v 'S' value "spindle speed cannot be negative"
  | .tool value, v => setTool v value
  | .dwellSeconds value, v => Draft.setPositive v 'P' value "dwell time cannot be negative"
  | .dwell, _ => .ok true
  | .plane value code, v => Draft.choose "plane" v value code
  | .units value code, v => Draft.choose "units" v value code
  | .distanceMode value code, v => Draft.choose "distance" v value code
  | .workOffset value code, v => Draft.choose "coordinate system" v value code
  | .clearAxisOffset, _ => .ok true
  | .noOp, _ => .ok true
  | .machine action, (v : List Auxiliary) => .ok (v ++ [action])
  | .flow action, (v : List Auxiliary) => .ok (v ++ [action])
  | .blockNumber n, (v : Option Nat) => .ok (v <|> some n)
  | .comment text, _ => .ok (some text)
  | .deletion, v => .ok v
  | .refuse cause, _ => .error cause

/-- What the slot holds after the edit: a refused one leaves it as it was. -/
def after (e : Edit) (v : e.slot.Content) : e.slot.Content :=
  match e.change v with
  | .ok w => w
  | .error _ => v

/-- Why the edit is refused. -/
def refusal? (e : Edit) (v : e.slot.Content) : Option BlockError :=
  match e.change v with
  | .ok _ => none
  | .error cause => some cause

end Edit

theorem Address.ofLetter?_of_axis {letter : Char} {ax : Axis} (h : Axis.ofLetter? letter = some ax) :
    ofLetter? letter = some (.axis ax) := by
  unfold ofLetter?
  split <;> first | cases h | rw [h, Option.map_some]

/-- What an item of a line asks for. -/
def Token.edit : Token → Edit
  | .word letter value raw _ => .ofWord letter value raw
  | .blockNumber n => .blockNumber n
  | .comment text => .comment text
  | .programMarker => .noOp
  | .blockDelete => .deletion
  | .error cause => .refuse (.lex cause)

/-- The slot that an item of a line concerns. -/
abbrev Token.slot (token : Token) : Slot := token.edit.slot

namespace Draft

/-- Changes the slot of an edit. -/
def apply (d : Draft) (e : Edit) : Except BlockError Draft :=
  (e.change (d.content e.slot)).map (d.put e.slot)

theorem pushWholeG_eq (d : Draft) (n : Nat) (raw : String) :
    d.pushWholeG n raw = d.apply (.ofWholeG n raw) := by
  unfold pushWholeG Edit.ofWholeG
  cases MotionKind.ofCode? n with
  | some kind => rfl
  | none =>
    cases Plane.ofCode? n with
    | some chosen => exact map_eq_bind _ _
    | none =>
      cases WorkOffset.ofCode? n with
      | some chosen => exact map_eq_bind _ _
      | none =>
        -- both sides ask for the same codes
        dsimp only
        repeat' split
        all_goals first | contradiction | rfl

theorem pushG_eq (d : Draft) (value : Float) (raw : String) :
    d.pushG value raw = d.apply (.ofG value raw) := by
  unfold pushG Edit.ofG
  cases isClearCode value with
  | true => rfl
  | false =>
    cases Number.integer? value with
    | none => rfl
    | some n =>
      cases h : (0 ≤ n && n ≤ 999 : Bool) with
      | true => simpa [h] using d.pushWholeG_eq n.toNat raw
      | false => simp only [h]; rfl

theorem pushM_eq (d : Draft) (value : Float) (raw : String) :
    d.pushM value raw = d.apply (.ofM value raw) := by
  unfold pushM Edit.ofM
  generalize Number.integer? value = code
  dsimp only
  repeat' split
  all_goals first | contradiction | rfl

theorem pushTool_eq (d : Draft) (value : Float) : d.pushTool value = d.apply (.tool value) := by
  have h : d.pushTool value = (Edit.setTool d.tool value).map fun tool => { d with tool } := by
    unfold pushTool Edit.setTool
    cases Number.integer? value with
    | none => rfl
    | some n =>
      dsimp only
      split
      · cases d.tool <;> rfl
      · rfl
  exact h

/-- An axis or arc word. -/
theorem pushWord_of_address (d : Draft) {letter : Char} {address : Address}
    (h : Address.ofLetter? letter = some address) (value : Float) (raw : String) :
    d.pushWord letter value raw = d.apply (.joinGroup { address, value }) := by
  have hw : GroupWord.ofToken? (.word letter value raw 0) = some { address, value } := by
    rw [GroupWord.ofToken?, h, Option.map_some]
  have ha : d.apply (.joinGroup { address, value }) =
      ((d.currentGroup.pushAt { address, value }).map fun g =>
        { motionMode := d.motionMode, closed := d.closedGroups, current := some g }).map (d.put .groups) := rfl
  rw [ha]
  refine (d.push_of_word hw).trans ?_
  cases d.currentGroup.pushAt { address, value } <;> rfl

theorem pushWord_eq (d : Draft) (letter : Char) (value : Float) (raw : String) :
    d.pushWord letter value raw = d.apply (.ofWord letter value raw) := by
  unfold Edit.ofWord
  split
  · exact d.pushG_eq value raw
  · exact d.pushM_eq value raw
  · exact map_eq_bind _ _
  · exact map_eq_bind _ _
  · exact d.pushTool_eq value
  · exact map_eq_bind _ _
  · split
    · rename_i address ha
      exact d.pushWord_of_address ha value raw
    · rename_i ha
      unfold pushWord
      split <;> first | contradiction | cases ha | skip
      split
      · rename_i ax hax
        rw [Address.ofLetter?_of_axis hax] at ha
        cases ha
      · rfl

/-- **Taking an item is applying its edit.** -/
theorem push_eq_apply (d : Draft) (token : Token) : d.push token = d.apply token.edit := by
  cases token with
  | word letter value raw column => exact d.pushWord_eq letter value raw
  | _ => rfl

/-! ## Steps -/

/-- The draft after an item that is taken or refused. -/
def step (d : Draft) (token : Token) : Draft :=
  d.put token.slot (token.edit.after (d.content token.slot))

/-- Why an item is refused. -/
def refusal? (d : Draft) (token : Token) : Option BlockError :=
  token.edit.refusal? (d.content token.slot)

theorem push_eq (d : Draft) (token : Token) :
    d.push token =
      match d.refusal? token with
      | none => .ok (d.step token)
      | some cause => .error cause := by
  rw [push_eq_apply, apply, refusal?, Edit.refusal?, step, Edit.after]
  cases token.edit.change (d.content token.slot) <;> rfl

/-- A refused item leaves the draft as it was. -/
theorem step_of_refused {d : Draft} {token : Token} {cause : BlockError}
    (h : d.refusal? token = some cause) : d.step token = d := by
  unfold refusal? Edit.refusal? at h
  unfold step Edit.after
  split at h
  · cases h
  · exact d.put_content _

theorem pushAll_cons (d : Draft) (token : Token) (rest : List Token) :
    d.pushAll (token :: rest) =
      (((d.step token).pushAll rest).1,
        (d.refusal? token).toList ++ ((d.step token).pushAll rest).2) := by
  rw [pushAll, push_eq]
  cases h : d.refusal? token with
  | none => rfl
  | some cause => rw [step_of_refused h]; rfl

theorem pushAll_append (d : Draft) (items rest : List Token) :
    d.pushAll (items ++ rest) =
      (((d.pushAll items).1.pushAll rest).1,
        (d.pushAll items).2 ++ ((d.pushAll items).1.pushAll rest).2) := by
  induction items generalizing d with
  | nil => rfl
  | cons token items ih => simp only [List.cons_append, pushAll_cons, ih, List.append_assoc]

/-- **Step and run.** What every item of a line keeps, the line keeps. -/
theorem pushAll_keeps {P : Draft → Prop} {items : List Token}
    (hstep : ∀ d, ∀ token ∈ items, P d → P (d.step token)) {d : Draft} (hd : P d) :
    P (d.pushAll items).1 := by
  induction items generalizing d with
  | nil => exact hd
  | cons token items ih =>
    rw [pushAll_cons]
    exact ih (fun d token ht => hstep d token (List.mem_cons_of_mem _ ht))
      (hstep d token List.mem_cons_self hd)

theorem content_step_self (d : Draft) (token : Token) :
    (d.step token).content token.slot = token.edit.after (d.content token.slot) :=
  d.content_put_self _ _

/-- **Frame.** An item leaves all slots but its own. -/
theorem content_step_ne (d : Draft) {token : Token} {slot : Slot} (h : slot ≠ token.slot) :
    (d.step token).content slot = d.content slot :=
  d.content_put_ne h _

end Draft

end Toolpath
