import Toolpath.Proofs.Block.Edit
import Toolpath.Proofs.Block.Range

/-!
# The shape of a line

Whatever a line says, and however often and in which order, its commands come in a fixed order of
stages, and most stages have one command at most. A motion stands behind the command that sets its mode;
only the first motion of a line may do without, and is then of the kind in force.

* `Stage`: the kinds of commands in their order.
* `Draft.part`, `Draft.actions_eq_flatMap`: the commands of a draft, stage by stage.
* `Draft.Staged`: codes of the machine and codes that stop it are kept apart (`Draft.Staged.pushAll`).
* `Introduced`: where motions stand (`Draft.introduced_ofTokens`).
* `Action.hasWords`: a command that needs words has some (`Draft.hasWords_ofTokens`).
* `Block.ofLine_shaped`: all of it, for every line.
-/

namespace Toolpath

/-! ## Stages -/

/-- The kinds of commands on a line. -/
inductive Stage where
  | comment | noOp | feedRate | spindleSpeed | tool
  /-- Spindle, coolant and tool change. -/
  | machine
  | dwell | plane | units | distanceMode | workOffset | clearAxisOffset | axisOffset
  /-- Motion modes and motions. -/
  | motion
  /-- Pause and program end. -/
  | flow
deriving DecidableEq, Repr

namespace Stage

/-- The stages as they follow each other. -/
def all : List Stage :=
  [.comment, .noOp, .feedRate, .spindleSpeed, .tool, .machine, .dwell, .plane, .units, .distanceMode,
    .workOffset, .clearAxisOffset, .axisOffset, .motion, .flow]

/-- The place of a stage. -/
def rank (stage : Stage) : Nat := all.idxOf stage

/-- Whether a line may have several commands of a stage. -/
def repeats : Stage → Bool
  | .machine | .axisOffset | .motion | .flow => true
  | _ => false

theorem all_pairwise : all.Pairwise fun s t => s.rank < t.rank := by decide

theorem flatMap_all {β : Type} (stage : Stage) (f : Stage → List β) (h : ∀ s ≠ stage, f s = []) :
    all.flatMap f = f stage := by
  have hs : ∀ s, f s = if s = stage then f stage else [] := by
    intro s
    split
    · rw [‹s = stage›]
    · exact h s ‹_›
  rw [funext hs]
  cases stage <;> simp [all]

end Stage

def Auxiliary.stage : Auxiliary → Stage
  | .dwell _ => .dwell
  | .spindleSpeed _ => .spindleSpeed
  | .selectTool _ => .tool
  | .spindle _ | .toolChange | .coolant _ => .machine
  | .pause _ | .programEnd => .flow

namespace Action

/-- The stage of a command. -/
def stage : Action → Stage
  | .comment _ => .comment
  | .noOp => .noOp
  | .setFeedRate _ => .feedRate
  | .auxiliary action => action.stage
  | .selectPlane _ => .plane
  | .setUnits _ => .units
  | .setDistanceMode _ => .distanceMode
  | .selectWorkOffset _ => .workOffset
  | .clearAxisOffset => .clearAxisOffset
  | .setAxisOffset _ => .axisOffset
  | .setMotionMode _ | .linearMove _ _ | .arcMove _ _ _ _ => .motion

/-- The kind of a motion. -/
def motionKind? : Action → Option MotionKind
  | .linearMove true _ => some .rapid
  | .linearMove false _ => some .linear
  | .arcMove true _ _ _ => some .arcClockwise
  | .arcMove false _ _ _ => some .arcCounterClockwise
  | _ => none

/-- Whether a command names what it needs: an axis, or for an arc an axis or an arc word. -/
def hasWords : Action → Bool
  | .linearMove _ words | .setAxisOffset words => !words.isEmpty
  | .arcMove _ target center radius => !target.isEmpty || !center.isEmpty || radius.isSome
  | _ => true

theorem motionKind?_of_not_isMotionPart {action : Action} (h : action.isMotionPart = false) :
    action.motionKind? = none := by
  cases action <;> first | rfl | cases h

/-- Only offsets and motions need words. -/
theorem hasWords_of_other {action : Action} (ho : action.isOffset = false)
    (hm : action.isMotionPart = false) : action.hasWords = true := by
  cases action with
  | setAxisOffset words => cases ho
  | linearMove | arcMove => cases hm
  | _ => rfl

end Action

/-! ## The codes of an item -/

/-- A code is kept with those of its stage. -/
def Edit.Staged : Edit → Prop
  | .machine action => action.stage = .machine
  | .flow action => action.stage = .flow
  | _ => True

namespace Edit

theorem ofWholeG_staged (n : Nat) (raw : String) : (ofWholeG n raw).Staged := by
  unfold ofWholeG
  split
  case h_4 => split <;> trivial
  all_goals trivial

theorem ofG_staged (value : Float) (raw : String) : (ofG value raw).Staged := by
  unfold ofG
  split
  · trivial
  · split
    · split
      · exact ofWholeG_staged _ raw
      · trivial
    · trivial

theorem ofM_staged (value : Float) (raw : String) : (ofM value raw).Staged := by
  unfold ofM
  split <;> first | rfl | trivial

end Edit

theorem Token.edit_staged (token : Token) : token.edit.Staged := by
  cases token with
  | word letter value raw column =>
    simp only [Token.edit]
    unfold Edit.ofWord
    split
    · exact Edit.ofG_staged value raw
    · exact Edit.ofM_staged value raw
    case h_7 => split <;> trivial
    all_goals trivial
  | _ => trivial

/-! ## Drafts by stages -/

namespace Draft

/-- The codes that a draft keeps in two lists are of two stages. -/
structure Staged (d : Draft) : Prop where
  machineActions : ∀ action ∈ d.machineActions, action.stage = .machine
  programFlow : ∀ action ∈ d.programFlow, action.stage = .flow

theorem staged_empty (mode : MotionKind) : Staged { motionMode := mode } where
  machineActions := fun action ha => by cases ha
  programFlow := fun action ha => by cases ha

theorem Staged.step {d : Draft} (hd : d.Staged) (token : Token) : (d.step token).Staged := by
  have he := token.edit_staged
  unfold Draft.step Token.slot
  generalize token.edit = e at he
  cases e with
  | machine action =>
    exact { hd with
      machineActions :=
        List.forall_mem_append.mpr ⟨hd.machineActions, List.forall_mem_singleton.mpr he⟩ }
  | flow action =>
    exact { hd with
      programFlow := List.forall_mem_append.mpr ⟨hd.programFlow, List.forall_mem_singleton.mpr he⟩ }
  | _ => exact ⟨hd.machineActions, hd.programFlow⟩

theorem Staged.pushAll {d : Draft} (hd : d.Staged) (items : List Token) : (d.pushAll items).1.Staged :=
  pushAll_keeps (fun _ token _ h => h.step token) hd

/-- The commands of one stage. -/
def part (d : Draft) : Stage → List Action
  | .comment => d.comment.toList.map .comment
  | .noOp => if d.noOp then [.noOp] else []
  | .feedRate => d.feedRate.toList.map .setFeedRate
  | .spindleSpeed => d.spindleSpeed.toList.map fun rpm => .auxiliary (.spindleSpeed rpm)
  | .tool => d.tool.toList.map fun tool => .auxiliary (.selectTool tool)
  | .machine => d.machineActions.map .auxiliary
  | .dwell => d.dwellActions
  | .plane => d.plane.toList.map fun chosen => .selectPlane chosen.value
  | .units => d.units.toList.map fun chosen => .setUnits chosen.value
  | .distanceMode => d.distanceMode.toList.map fun chosen => .setDistanceMode chosen.value
  | .workOffset => d.workOffset.toList.map fun chosen => .selectWorkOffset chosen.value
  | .clearAxisOffset => if d.clearAxisOffset then [.clearAxisOffset] else []
  | .axisOffset => d.groups.flatMap WordGroup.offsetActions
  | .motion => d.groups.flatMap WordGroup.motionActions
  | .flow => d.programFlow.map .auxiliary

/-- The commands of a line are those of its stages in their order. -/
theorem actions_eq_flatMap (d : Draft) : d.actions = Stage.all.flatMap d.part := by
  simp only [actions, Stage.all, List.flatMap_cons, List.flatMap_nil, part, List.append_nil,
    List.append_assoc]

theorem Staged.stage_of_mem_part {d : Draft} (hd : d.Staged) {stage : Stage} :
    ∀ action ∈ d.part stage, action.stage = stage := by
  intro action ha
  cases stage with
  | machine =>
    obtain ⟨code, hc, rfl⟩ := List.mem_map.mp ha
    exact hd.machineActions code hc
  | flow =>
    obtain ⟨code, hc, rfl⟩ := List.mem_map.mp ha
    exact hd.programFlow code hc
  | axisOffset =>
    obtain ⟨g, -, ha⟩ := List.mem_flatMap.mp ha
    have ho := g.offsetActions_isOffset action ha
    cases action with
    | setAxisOffset words => rfl
    | _ => cases ho
  | motion =>
    obtain ⟨g, -, ha⟩ := List.mem_flatMap.mp ha
    have hm := g.motionActions_isMotionPart action ha
    cases action with
    | setMotionMode | linearMove | arcMove => rfl
    | _ => cases hm
  | noOp | clearAxisOffset =>
    simp only [part] at ha
    split at ha
    · rw [List.mem_singleton.mp ha]
      rfl
    · cases ha
  | dwell =>
    simp only [part, dwellActions] at ha
    split at ha
    · rw [List.mem_singleton.mp ha]
      rfl
    · cases ha
  | _ =>
    obtain ⟨_, -, rfl⟩ := List.mem_map.mp ha
    rfl

theorem length_part_le (d : Draft) {stage : Stage} (h : stage.repeats = false) :
    (d.part stage).length ≤ 1 := by
  have hmap : ∀ {α : Type} (slot : Option α) (f : α → Action), (slot.toList.map f).length ≤ 1 :=
    fun slot f => by rw [List.length_map]; exact Option.length_toList_le
  have hif : ∀ (b : Bool) (action : Action), (if b then [action] else []).length ≤ 1 :=
    fun b action => by cases b <;> simp
  cases stage with
  | machine | axisOffset | motion | flow => cases h
  | noOp => exact hif d.noOp _
  | clearAxisOffset => exact hif d.clearAxisOffset _
  | dwell =>
    simp only [part, dwellActions]
    split
    · exact Nat.le_refl 1
    · exact Nat.zero_le 1
  | _ => exact hmap _ _

/-- Commands come in the order of their stages. -/
theorem Staged.actions_pairwise {d : Draft} (hd : d.Staged) :
    d.actions.Pairwise fun a b => a.stage.rank ≤ b.stage.rank := by
  rw [actions_eq_flatMap, List.pairwise_flatMap]
  constructor
  · intro stage _
    refine List.pairwise_iff_forall_sublist.mpr fun {a b} hab => ?_
    refine Nat.le_of_eq ?_
    rw [hd.stage_of_mem_part a (hab.mem (by simp)), hd.stage_of_mem_part b (hab.mem (by simp))]
  · refine Stage.all_pairwise.imp fun {s t} hst a ha b hb => ?_
    rw [hd.stage_of_mem_part a ha, hd.stage_of_mem_part b hb]
    exact Nat.le_of_lt hst

/-- The commands of a stage, read off from all of them. -/
theorem Staged.filter_stage {d : Draft} (hd : d.Staged) (stage : Stage) :
    (d.actions.filter fun action => action.stage = stage) = d.part stage := by
  rw [actions_eq_flatMap, List.filter_flatMap, Stage.flatMap_all stage]
  · rw [List.filter_eq_self]
    intro action ha
    exact decide_eq_true (hd.stage_of_mem_part action ha)
  · intro other ho
    rw [List.filter_eq_nil_iff]
    intro action ha
    rw [hd.stage_of_mem_part action ha, decide_eq_true_eq]
    exact ho

end Draft

/-! ## Where motions stand -/

/-- Every motion stands right behind the command that sets its mode. If a mode is in force, the first command
of all motion groups may itself be a motion of that kind. -/
def Introduced (inForce : Option MotionKind) (actions : List Action) : Prop :=
  ∀ before action after kind, actions = before ++ action :: after → action.motionKind? = some kind →
    before.getLast? = some (.setMotionMode kind) ∨
      inForce = some kind ∧ ∀ other ∈ before, other.isMotionPart = false

namespace Introduced

variable {inForce : Option MotionKind} {l l' : List Action}

theorem of_still (h : ∀ action ∈ l, action.motionKind? = none) : Introduced inForce l := by
  rintro before action after kind rfl hk
  rw [h action (List.mem_append_right _ List.mem_cons_self)] at hk
  cases hk

theorem append (h : Introduced inForce l) (h' : Introduced none l') : Introduced inForce (l ++ l') := by
  intro before action after kind heq hk
  rcases List.append_eq_append_iff.mp heq with ⟨middle, rfl, hl'⟩ | ⟨middle, hl, hr⟩
  · -- the motion stands in the second part
    rcases h' middle action after kind hl' hk with hlast | ⟨hnone, -⟩
    · rw [List.getLast?_append, hlast]
      exact .inl rfl
    · cases hnone
  · rcases List.cons_eq_append_iff.mp hr with ⟨rfl, hl'⟩ | ⟨rest, rfl, -⟩
    · -- no motion can come first there
      rcases h' [] action after kind hl' hk with hlast | ⟨hnone, -⟩
      · cases hlast
      · cases hnone
    · exact h before action rest kind hl hk

/-- A motion of the kind in force may come first. -/
theorem first {mode : MotionKind} {motion : Action} (h : ∀ action ∈ l, action.isMotionPart = false)
    (hm : motion.motionKind? = some mode) : Introduced (some mode) (l ++ [motion]) := by
  intro before action after kind heq hk
  rcases List.append_eq_append_iff.mp heq with ⟨middle, rfl, hr⟩ | ⟨middle, rfl, hr⟩
  · obtain ⟨rfl, hr⟩ | ⟨rest, -, hr⟩ := List.cons_eq_append_iff.mp hr
    · obtain ⟨rfl, -⟩ := List.cons.inj hr
      rw [List.append_nil]
      exact .inr ⟨hm.symm.trans hk, h⟩
    · simp at hr
  · obtain ⟨rfl, hr⟩ | ⟨rest, rfl, -⟩ := List.cons_eq_append_iff.mp hr
    · obtain ⟨rfl, -⟩ := List.cons.inj hr
      exact .inr ⟨hm.symm.trans hk, by simpa using h⟩
    · rw [Action.motionKind?_of_not_isMotionPart (h action (by simp))] at hk
      cases hk

/-- The mode of a group, and its motion. -/
theorem group {kind : MotionKind} {motion : Action} (hm : motion.motionKind? = some kind) :
    Introduced none [.setMotionMode kind, motion] := by
  intro before action after kind' heq hk
  obtain ⟨rfl, hcode⟩ | ⟨rest, rfl, hrest⟩ := List.cons_eq_append_iff.mp heq
  · obtain ⟨rfl, -⟩ := List.cons.inj hcode
    cases hk
  · obtain ⟨rfl, hmotion⟩ | ⟨_, -, hnil⟩ := List.cons_eq_append_iff.mp hrest
    · obtain ⟨rfl, -⟩ := List.cons.inj hmotion
      rw [Option.some.inj (hm.symm.trans hk)]
      exact .inl rfl
    · simp at hnil

theorem flatMap {segments : List Segment} (h : ∀ s ∈ segments, Introduced none s.motions) :
    Introduced none (segments.flatMap Segment.motions) := by
  induction segments with
  | nil => exact of_still (by simp)
  | cons s rest ih =>
    obtain ⟨hs, hrest⟩ := List.forall_mem_cons.mp h
    rw [List.flatMap_cons]
    exact hs.append (ih hrest)

end Introduced

namespace Segment

variable (s : Segment)

theorem motionKind?_move (kind : MotionKind) : (s.move kind).motionKind? = some kind := by
  cases kind <;> rfl

/-- A code opens every segment but the first. -/
theorem implicit_of_mem_cut {items : List Token} : ∀ s ∈ (cut items).2, s.implicit = false := by
  induction items with
  | nil => exact fun s hs => by cases hs
  | cons token rest ih =>
    cases h : GroupKind.ofToken? token with
    | some kind =>
      rw [cut_of_opens h]
      exact List.forall_mem_cons.mpr ⟨rfl, ih⟩
    | none =>
      rw [cut_of_not_opens h]
      exact ih

theorem introduced_motions (h : s.implicit = false) : Introduced none s.motions := by
  unfold motions
  split
  · rename_i kind _
    rw [h]
    by_cases ht : s.taken = []
    · rw [if_pos ht]
      exact .of_still (List.forall_mem_singleton.mpr rfl)
    · rw [if_neg ht]
      exact .group (s.motionKind?_move kind)
  · exact .of_still (List.forall_mem_nil _)

/-- The words before the first code follow the mode in force. -/
theorem introduced_implicit {front : List Action} (h : ∀ action ∈ front, action.isMotionPart = false)
    (mode : MotionKind) (words : List GroupWord) :
    Introduced (some mode) (front ++ motions { kind := .motion mode, implicit := true, words }) := by
  let s : Segment := { kind := .motion mode, implicit := true, words }
  have hs : s.motions = if s.taken = [] then [] else [s.move mode] := rfl
  rw [hs]
  split
  · rw [List.append_nil]
    exact .of_still fun action ha => Action.motionKind?_of_not_isMotionPart (h action ha)
  · exact .first h (s.motionKind?_move mode)

theorem value?_of_not_allows {address : Address} (h : s.kind.allows address = false) :
    s.value? address = none := by
  rw [value?, h]
  rfl

theorem hasWords_offsets : ∀ action ∈ s.offsets, action.hasWords = true := by
  intro action ha
  unfold offsets at ha
  split at ha
  · cases ha
  · split at ha
    · rename_i hany
      rw [List.mem_singleton.mp ha, Action.hasWords, isEmpty_axes_eq, hany]
      rfl
    · cases ha

/-- Without arc words, a motion names an axis. -/
theorem hasWords_move {kind : MotionKind} (hk : s.kind = .motion kind) (ht : s.taken ≠ []) :
    (s.move kind).hasWords = true := by
  have hw : s.group.hasWords = true := by simpa using mt s.hasWords_group.mp ht
  cases kind with
  | arcClockwise | arcCounterClockwise => exact hw
  | rapid | linear =>
    have harc : ∀ address : Address, address.isAxis = false → s.value? address = none := by
      intro address ha
      refine s.value?_of_not_allows ?_
      rw [hk, GroupKind.allows, ha]
      rfl
    have hc : s.center.isEmpty = true := by
      simp [CenterOffsets.isEmpty, center, harc .i rfl, harc .j rfl, harc .k rfl]
    have hr : s.radius = none := harc .r rfl
    have ha : s.axes.isEmpty = false := by simpa [WordGroup.hasWords, group, hc, hr] using hw
    rw [move, Action.hasWords, ha]
    rfl

theorem hasWords_motions : ∀ action ∈ s.motions, action.hasWords = true := by
  intro action ha
  unfold motions at ha
  split at ha
  · rename_i kind hk
    rcases List.mem_append.mp ha with ha | ha
    · split at ha
      · cases ha
      · rw [List.mem_singleton.mp ha]
        rfl
    · split at ha
      · cases ha
      · rw [List.mem_singleton.mp ha]
        exact s.hasWords_move hk ‹_›
  · cases ha

end Segment

namespace Draft

section OfTokens

variable (mode : MotionKind) (items : List Token)

/-- What comes before the motion groups is none of theirs. -/
theorem isMotionPart_front (d : Draft) :
    ∀ action ∈ d.settings ++ d.groups.flatMap WordGroup.offsetActions, action.isMotionPart = false := by
  refine List.forall_mem_append.mpr ⟨fun action ha => (d.settings_plain action ha).2, ?_⟩
  refine List.forall_mem_flatMap.mpr fun g _ action ha => ?_
  exact Action.isMotionPart_of_isOffset (g.offsetActions_isOffset action ha)

/-- The motions of a line stand behind their modes. -/
theorem introduced_ofTokens :
    Introduced (some mode) (pushAll { motionMode := mode } items).1.actions := by
  have hmotion := (filter_isMotionPart _).symm.trans (motions_ofTokens mode items)
  have hfront := isMotionPart_front (pushAll { motionMode := mode } items).1
  rw [actions_eq, hmotion, Segment.ofTokens, List.flatMap_cons, ← List.append_assoc]
  have hfirst := Segment.introduced_implicit hfront mode (Segment.cut items).1
  have hrest : Introduced none ((Segment.cut items).2.flatMap Segment.motions) :=
    .flatMap fun s hs => s.introduced_motions (Segment.implicit_of_mem_cut s hs)
  exact (hfirst.append hrest).append (.of_still (List.forall_mem_map.mpr fun _ _ => rfl))

/-- Every command of a line has the words that it needs. -/
theorem hasWords_ofTokens :
    ∀ action ∈ (pushAll { motionMode := mode } items).1.actions, action.hasWords = true := by
  intro action ha
  cases ho : action.isOffset with
  | true =>
    have hmem := List.mem_filter.mpr ⟨ha, ho⟩
    rw [offsets_ofTokens] at hmem
    obtain ⟨s, -, hs⟩ := List.mem_flatMap.mp hmem
    exact s.hasWords_offsets action hs
  | false =>
    cases hm : action.isMotionPart with
    | true =>
      have hmem := List.mem_filter.mpr ⟨ha, hm⟩
      rw [motions_ofTokens] at hmem
      obtain ⟨s, -, hs⟩ := List.mem_flatMap.mp hmem
      exact s.hasWords_motions action hs
    | false => exact Action.hasWords_of_other ho hm

end OfTokens

end Draft

namespace Block

/-- The shape of a block under a motion mode. -/
structure Shaped (b : Block) (line : Nat) (mode : MotionKind) : Prop where
  line : ∀ c ∈ b.commands, c.line = line
  order : b.commands.Pairwise fun c c' => c.action.stage.rank ≤ c'.action.stage.rank
  once : ∀ stage : Stage, stage.repeats = false →
    (b.commands.filter fun c => c.action.stage = stage).length ≤ 1
  introduced : Introduced (some mode) (b.commands.map Command.action)
  words : ∀ c ∈ b.commands, c.action.hasWords = true
  numbers : ∀ c ∈ b.commands, c.action.InRange

/-- **The shape of a line.** Whatever the text of a line is, its commands carry its place and follow each
other stage by stage, each stage that does not repeat at most once; motions stand behind their modes, and
commands have the words and numbers that they need. -/
theorem ofLine_shaped (line : Nat) (mode : MotionKind) (text : String) :
    (ofLine line mode text).Shaped line mode := by
  have hd := (Draft.staged_empty mode).pushAll (tokens text)
  have hc : (ofLine line mode text).commands = (Draft.ofLine mode text).actions.map (Command.mk line) := by
    rw [ofLine, ofTokens, Draft.ofLine]
  refine ⟨?_, ?_, ?_, ?_, ?_, ?_⟩
  · rw [hc]
    exact List.forall_mem_map.mpr fun _ _ => rfl
  · rw [hc, List.pairwise_map]
    exact hd.actions_pairwise
  · intro stage hs
    rw [hc, List.filter_map, List.length_map]
    exact Nat.le_trans (Nat.le_of_eq (congrArg List.length (hd.filter_stage stage)))
      (Draft.length_part_le _ hs)
  · rw [actions_eq]
    exact Draft.introduced_ofTokens mode (tokens text)
  · rw [hc]
    exact List.forall_mem_map.mpr (Draft.hasWords_ofTokens mode (tokens text))
  · exact List.forall_mem_map.mp (ofLine_inRange line mode text)

example : ((ofLine 0 .rapid "M30 X1 G1 Y2 F100 M8 (cut)").commands.map fun c => c.action.stage) =
    [.comment, .feedRate, .machine, .motion, .motion, .motion, .flow] := by
  decide +kernel

end Block

end Toolpath
