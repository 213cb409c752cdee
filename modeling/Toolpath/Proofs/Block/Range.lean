import Toolpath.Proofs.Block.Parts
import Toolpath.Proofs.Machine.Effect
import Toolpath.Proofs.Number.Finite

/-!
# The range of numbers on a line

`Tokenizer.word` lets only finite numbers through, and `LineBuilder.word` refuses negative rates and
times. So whatever the text of a line is, all numbers in its commands can be used.

* `Number.IsRate`: a finite number that is not negative.
* `Action.InRange`: every number of a command can be used.
* `tokens_inRange`: the items of a line.
* `Draft.InRange.push`, `Draft.InRange.pushAll`: one more item, and all of them.
* `Block.ofLine_inRange`: the commands of a line.
-/

namespace Toolpath

/-- A finite number that is not negative. -/
structure Number.IsRate (x : Float) : Prop where
  finite : x.isFinite = true
  nonneg : 0 ≤ x

theorem Number.isRate_zero : Number.IsRate 0 := ⟨by decide, by decide⟩

/-! ## Commands -/

/-- The programmed numbers are finite. -/
def AxisWords.InRange (w : AxisWords) : Prop := ∀ axis, ∀ v ∈ w.get axis, v.isFinite = true

/-- The distances that are given are finite. -/
def CenterOffsets.InRange (o : CenterOffsets) : Prop := ∀ axis, ∀ v ∈ o.along axis, v.isFinite = true

theorem CenterOffsets.inRange_of {o : CenterOffsets} (hi : ∀ v ∈ o.i, v.isFinite = true)
    (hj : ∀ v ∈ o.j, v.isFinite = true) (hk : ∀ v ∈ o.k, v.isFinite = true) : o.InRange := by
  intro axis v hv
  cases axis with
  | x => exact hi v hv
  | y => exact hj v hv
  | z => exact hk v hv
  | a | b | c => cases hv

def Auxiliary.InRange : Auxiliary → Prop
  | .dwell seconds => Number.IsRate seconds
  | .spindleSpeed rpm => Number.IsRate rpm
  | .selectTool tool => tool < Number.twoTo 32
  | _ => True

/-- Every number of a command can be used. -/
def Action.InRange : Action → Prop
  | .linearMove _ target => target.InRange
  | .arcMove _ target center radius =>
    target.InRange ∧ center.InRange ∧ ∀ v ∈ radius, v.isFinite = true
  | .setFeedRate rate => Number.IsRate rate
  | .setAxisOffset words => words.InRange
  | .auxiliary action => action.InRange
  | _ => True

/-! ## Items -/

/-- A word has a finite number. -/
def Token.InRange : Token → Prop
  | .word _ value _ _ => value.isFinite = true
  | _ => True

namespace Scanner

theorem isFinite_of_numberValue? {text : List Char} {value : Float}
    (h : numberValue? text = some value) : value.isFinite = true := by
  unfold numberValue? at h
  dsimp only at h
  split at h
  · cases h
  · split at h
    · rename_i hv
      exact Option.some.inj h ▸ hv
    · cases h

theorem wordToken_inRange (letter : Char) (column : Nat) (text : List Char) :
    (wordToken letter column text).InRange := by
  unfold wordToken
  split
  · trivial
  · dsimp only
    split
    · trivial
    · rename_i value hv
      split
      · split
        · split <;> trivial
        · trivial
      · exact isFinite_of_numberValue? hv

theorem item_inRange (fresh : Bool) (column : Nat) (c : Char) (s : List Char) :
    (item fresh column c s).1.InRange := by
  unfold item
  split
  · trivial
  · split
    · trivial
    · split
      · trivial
      · split
        · exact wordToken_inRange _ _ _
        · trivial

theorem next?_inRange {s t : Scanner} {token : Token} (h : s.next? = some (token, t)) :
    token.InRange := by
  unfold next? at h
  dsimp only at h
  split at h
  · cases h
  · cases h
    exact item_inRange _ _ _ _

theorem toList_inRange (s : Scanner) : ∀ token ∈ s.toList, token.InRange := by
  fun_induction toList s with
  | case1 s h => exact fun token ht => absurd ht List.not_mem_nil
  | case2 s first t h ih => exact List.forall_mem_cons.mpr ⟨next?_inRange h, ih⟩

end Scanner

/-- **Words have finite numbers.** -/
theorem tokens_inRange (line : String) : ∀ token ∈ tokens line, token.InRange :=
  (Scanner.ofLine line).toList_inRange

/-! ## Groups of words -/

namespace WordGroup

/-- The numbers of a group are finite. -/
structure InRange (g : WordGroup) : Prop where
  axes : g.axes.InRange
  center : g.center.InRange
  radius : ∀ v ∈ g.radius, v.isFinite = true

theorem inRange_empty (kind : GroupKind) (implicit : Bool) : InRange { kind, implicit } where
  axes := by
    intro axis v hv
    rw [AxisWords.empty, PerAxis.get_const] at hv
    cases hv
  center := by
    intro axis v hv
    cases axis <;> cases hv
  radius := by
    intro v hv
    cases hv

variable {g g' : WordGroup} {slot slot' : Option Float} {letter : Char} {value : Float}

theorem setOnce_ok (h : setOnce slot letter value = .ok slot') : slot' = some value := by
  unfold setOnce at h
  split at h
  · cases h
  · exact (Except.ok.inj h).symm

theorem InRange.pushAxis {axis : Axis} (hg : g.InRange) (hv : value.isFinite = true)
    (h : g.pushAxis axis value = .ok g') : g'.InRange := by
  obtain ⟨slot, hs, h⟩ := exists_of_bind_ok h
  cases h
  cases setOnce_ok hs
  refine { hg with axes := fun other v hother => ?_ }
  by_cases ho : other = axis
  · subst ho
    rw [PerAxis.get_set_self] at hother
    exact Option.some.inj hother ▸ hv
  · rw [PerAxis.get_set_ne _ _ ho] at hother
    exact hg.axes other v hother

theorem InRange.pushArcWord (hg : g.InRange) (hv : value.isFinite = true)
    (h : g.pushArcWord letter value = .ok g') : g'.InRange := by
  have hi := hg.center .x
  have hj := hg.center .y
  have hk := hg.center .z
  unfold WordGroup.pushArcWord at h
  split at h
  · cases h
  · split at h
    all_goals
      obtain ⟨slot, hs, h⟩ := exists_of_bind_ok h
      cases h
      cases setOnce_ok hs
    · exact { hg with center := CenterOffsets.inRange_of (fun v h => Option.some.inj h ▸ hv) hj hk }
    · exact { hg with center := CenterOffsets.inRange_of hi (fun v h => Option.some.inj h ▸ hv) hk }
    · exact { hg with center := CenterOffsets.inRange_of hi hj fun v h => Option.some.inj h ▸ hv }
    · exact { hg with radius := fun v h => Option.some.inj h ▸ hv }

theorem InRange.motionActions (hg : g.InRange) : ∀ action ∈ g.motionActions, action.InRange := by
  intro action ha
  unfold WordGroup.motionActions at ha
  split at ha
  · rename_i kind hk
    rcases List.mem_append.mp ha with ha | ha
    · split at ha
      · cases ha
      · rw [List.mem_singleton.mp ha]
        trivial
    · rw [Option.mem_toList] at ha
      unfold motion? at ha
      split at ha
      · cases ha
        cases kind with
        | rapid | linear => exact hg.axes
        | arcClockwise | arcCounterClockwise => exact ⟨hg.axes, hg.center, hg.radius⟩
      · cases ha
  · cases ha

theorem InRange.offsetActions (hg : g.InRange) : ∀ action ∈ g.offsetActions, action.InRange := by
  intro action ha
  unfold WordGroup.offsetActions at ha
  split at ha
  · cases ha
  · split at ha
    · cases ha
    · rw [List.mem_singleton.mp ha]
      exact hg.axes

end WordGroup

/-! ## Drafts -/

namespace Draft

/-- The numbers that a draft holds can be used. -/
structure InRange (d : Draft) : Prop where
  feedRate : ∀ v ∈ d.feedRate, Number.IsRate v
  spindleSpeed : ∀ v ∈ d.spindleSpeed, Number.IsRate v
  tool : ∀ n ∈ d.tool, n < Number.twoTo 32
  dwellSeconds : ∀ v ∈ d.dwellSeconds, Number.IsRate v
  machineActions : ∀ action ∈ d.machineActions, action.InRange
  groups : ∀ g ∈ d.groups, g.InRange
  programFlow : ∀ action ∈ d.programFlow, action.InRange

theorem inRange_empty (mode : MotionKind) : InRange { motionMode := mode } where
  feedRate := fun v hv => by cases hv
  spindleSpeed := fun v hv => by cases hv
  tool := fun n hn => by cases hn
  dwellSeconds := fun v hv => by cases hv
  machineActions := fun action ha => by cases ha
  groups := fun g hg => by cases hg
  programFlow := fun action ha => by cases ha

variable {d d' : Draft} {value : Float} {raw : String}

theorem InRange.currentGroup (hd : d.InRange) : d.currentGroup.InRange := by
  unfold Draft.currentGroup
  cases ho : d.openGroup with
  | none => exact WordGroup.inRange_empty _ _
  | some g => exact hd.groups g (by simp [Draft.groups, ho])

/-- The open group is replaced. -/
theorem InRange.withGroup (hd : d.InRange) {g : WordGroup} (hg : g.InRange) :
    InRange { d with openGroup := some g } := by
  refine { hd with groups := fun other ho => ?_ }
  rcases List.mem_append.mp ho with ho | ho
  · exact hd.groups other (List.mem_append_left _ ho)
  · exact List.mem_singleton.mp ho ▸ hg

theorem InRange.startGroup (hd : d.InRange) (kind : GroupKind) : (d.startGroup kind).InRange := by
  refine { hd with groups := fun g hg => ?_ }
  rcases List.mem_append.mp hg with hg | hg
  · exact hd.groups g hg
  · exact List.mem_singleton.mp hg ▸ WordGroup.inRange_empty kind false

/-- A draft that depends on a step that may be refused. -/
theorem inRange_of_bind {α : Type} {x : Except BlockError α} {f : α → Draft}
    (h : (do return f (← x)) = .ok d') (hf : ∀ a, x = .ok a → (f a).InRange) : d'.InRange := by
  obtain ⟨a, ha, h⟩ := exists_of_bind_ok h
  exact Except.ok.inj h ▸ hf a ha

theorem InRange.pushWholeG (hd : d.InRange) {n : Nat} (h : d.pushWholeG n raw = .ok d') :
    d'.InRange := by
  unfold Draft.pushWholeG at h
  dsimp only at h
  split at h
  · exact Except.ok.inj h ▸ hd.startGroup _
  · exact inRange_of_bind h fun _ _ => { hd with }
  · exact inRange_of_bind h fun _ _ => { hd with }
  · split at h
    · exact Except.ok.inj h ▸ { hd with }
    · exact inRange_of_bind h fun _ _ => { hd with }
    · exact inRange_of_bind h fun _ _ => { hd with }
    · exact inRange_of_bind h fun _ _ => { hd with }
    · exact inRange_of_bind h fun _ _ => { hd with }
    · exact Except.ok.inj h ▸ hd.startGroup _
    · exact Except.ok.inj h ▸ { hd with }
    · cases h

theorem InRange.pushG (hd : d.InRange) (h : d.pushG value raw = .ok d') : d'.InRange := by
  unfold Draft.pushG at h
  split at h
  · exact Except.ok.inj h ▸ { hd with }
  · split at h
    · split at h
      · exact hd.pushWholeG h
      · cases h
    · cases h

theorem InRange.withMachineAction (hd : d.InRange) {action : Auxiliary} (ha : action.InRange) :
    InRange { d with machineActions := d.machineActions ++ [action] } :=
  { hd with
    machineActions :=
      List.forall_mem_append.mpr ⟨hd.machineActions, List.forall_mem_singleton.mpr ha⟩ }

theorem InRange.withProgramFlow (hd : d.InRange) {action : Auxiliary} (ha : action.InRange) :
    InRange { d with programFlow := d.programFlow ++ [action] } :=
  { hd with
    programFlow := List.forall_mem_append.mpr ⟨hd.programFlow, List.forall_mem_singleton.mpr ha⟩ }

theorem InRange.pushM (hd : d.InRange) (h : d.pushM value raw = .ok d') : d'.InRange := by
  unfold Draft.pushM at h
  dsimp only at h
  split at h
  case h_12 => cases h
  case h_1 | h_2 | h_3 | h_4 => exact Except.ok.inj h ▸ hd.withProgramFlow trivial
  all_goals exact Except.ok.inj h ▸ hd.withMachineAction trivial

theorem setPositive_ok {slot slot' : Option Float} {letter : Char} {reason : String}
    (hv : value.isFinite = true) (h : setPositive slot letter value reason = .ok slot') :
    ∀ v ∈ slot', Number.IsRate v := by
  unfold setPositive at h
  split at h
  · cases h
  · rename_i hneg
    intro v hmem
    rw [WordGroup.setOnce_ok h] at hmem
    exact Option.some.inj hmem ▸ ⟨hv, Number.nonneg_of_not_neg hv hneg⟩

theorem InRange.pushTool (hd : d.InRange) (h : d.pushTool value = .ok d') : d'.InRange := by
  unfold Draft.pushTool at h
  dsimp only at h
  split at h
  · rename_i n hn
    split at h
    · rename_i hrange
      split at h
      · cases h
      · refine Except.ok.inj h ▸ { hd with tool := fun t ht => ?_ }
        have ht : n.toNat = t := Option.some.inj ht
        simp only [Bool.and_eq_true, decide_eq_true_eq] at hrange
        omega
    · cases h
  · cases h

theorem InRange.pushWord (hd : d.InRange) {letter : Char} (hv : value.isFinite = true)
    (h : d.pushWord letter value raw = .ok d') : d'.InRange := by
  unfold Draft.pushWord at h
  split at h
  · exact hd.pushG h
  · exact hd.pushM h
  · exact inRange_of_bind h fun _ hs => { hd with feedRate := setPositive_ok hv hs }
  · exact inRange_of_bind h fun _ hs => { hd with spindleSpeed := setPositive_ok hv hs }
  · exact hd.pushTool h
  · exact inRange_of_bind h fun _ hs => { hd with dwellSeconds := setPositive_ok hv hs }
  · exact inRange_of_bind h fun _ hg => hd.withGroup (hd.currentGroup.pushArcWord hv hg)
  · exact inRange_of_bind h fun _ hg => hd.withGroup (hd.currentGroup.pushArcWord hv hg)
  · exact inRange_of_bind h fun _ hg => hd.withGroup (hd.currentGroup.pushArcWord hv hg)
  · exact inRange_of_bind h fun _ hg => hd.withGroup (hd.currentGroup.pushArcWord hv hg)
  · split at h
    · exact inRange_of_bind h fun _ hg => hd.withGroup (hd.currentGroup.pushAxis hv hg)
    · cases h

/-- **One item.** -/
theorem InRange.push (hd : d.InRange) {token : Token} (ht : token.InRange)
    (h : d.push token = .ok d') : d'.InRange := by
  cases token with
  | word letter value raw column => exact hd.pushWord ht h
  | blockNumber n => exact Except.ok.inj h ▸ { hd with }
  | comment text => exact Except.ok.inj h ▸ { hd with }
  | programMarker => exact Except.ok.inj h ▸ { hd with }
  | blockDelete => exact Except.ok.inj h ▸ hd
  | error cause => cases h

/-- **All items.** -/
theorem InRange.pushAll (hd : d.InRange) {items : List Token} (hi : ∀ token ∈ items, token.InRange) :
    (d.pushAll items).1.InRange := by
  induction items generalizing d with
  | nil => exact hd
  | cons token items ih =>
    obtain ⟨ht, hi⟩ := List.forall_mem_cons.mp hi
    unfold Draft.pushAll
    split
    · rename_i next hnext
      exact ih (hd.push ht hnext) hi
    · exact ih hd hi

theorem InRange.dwellActions (hd : d.InRange) : ∀ action ∈ d.dwellActions, action.InRange := by
  intro action ha
  unfold Draft.dwellActions at ha
  split at ha
  · rename_i seconds _ hs
    rw [List.mem_singleton.mp ha]
    exact hd.dwellSeconds seconds hs
  · cases ha

theorem InRange.settings (hd : d.InRange) : ∀ action ∈ d.settings, action.InRange := by
  have hplain : ∀ (b : Bool) {action : Action}, action.InRange →
      ∀ other ∈ (if b then [action] else []), other.InRange := by
    intro b action ha other ho
    split at ho
    · exact List.mem_singleton.mp ho ▸ ha
    · cases ho
  simp only [Draft.settings, List.forall_mem_append, List.forall_mem_map, Option.mem_toList]
  refine ⟨⟨⟨⟨⟨⟨⟨⟨⟨⟨⟨?_, ?_⟩, ?_⟩, ?_⟩, ?_⟩, ?_⟩, ?_⟩, ?_⟩, ?_⟩, ?_⟩, ?_⟩, ?_⟩
  · exact fun _ _ => trivial
  · exact hplain d.noOp trivial
  · exact hd.feedRate
  · exact hd.spindleSpeed
  · exact hd.tool
  · exact hd.machineActions
  · exact hd.dwellActions
  · exact fun _ _ => trivial
  · exact fun _ _ => trivial
  · exact fun _ _ => trivial
  · exact fun _ _ => trivial
  · exact hplain d.clearAxisOffset trivial

theorem InRange.actions (hd : d.InRange) : ∀ action ∈ d.actions, action.InRange := by
  simp only [actions_eq, List.forall_mem_append, List.forall_mem_map, List.forall_mem_flatMap]
  refine ⟨⟨⟨hd.settings, ?_⟩, ?_⟩, hd.programFlow⟩
  · exact fun g hg => (hd.groups g hg).offsetActions
  · exact fun g hg => (hd.groups g hg).motionActions

end Draft

/-- **The numbers of a line.** Every number in a command can be used. -/
theorem Block.ofLine_inRange (line : Nat) (mode : MotionKind) (text : String) :
    ∀ action ∈ (Block.ofLine line mode text).commands.map Command.action, action.InRange := by
  rw [actions_eq]
  exact ((Draft.inRange_empty mode).pushAll (tokens_inRange text)).actions

end Toolpath
