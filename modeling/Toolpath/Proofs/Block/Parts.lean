import Toolpath.Block

/-!
# The parts of a line

The commands that `LineBuilder.finish` pushes come in four parts: settings, axis offsets, the commands
of motion groups, and what stops the program. Each part is distinguished by the kind of its commands.

* `Draft.ofLine`: the words of a line, with its block (`Block.actions_eq`).
* `Draft.actions_eq`: the parts in their order.
* `Draft.filter_isOffset`, `Draft.filter_isMotionPart`: a part read off from the commands.
* `Draft.mem_leftovers`: the problems of a line as a whole.
-/

namespace Toolpath

namespace Action

/-- Whether an instruction leaves the machine alone. -/
def isIdle : Action → Bool
  | .comment _ | .noOp | .auxiliary (.dwell _) | .auxiliary .toolChange | .auxiliary (.pause _) => true
  | _ => false

/-- Whether an instruction sets an axis offset. -/
def isOffset : Action → Bool
  | .setAxisOffset _ => true
  | _ => false

/-- Whether an instruction is one of a motion group: its mode, or its motion. -/
def isMotionPart : Action → Bool
  | .setMotionMode _ | .linearMove _ _ | .arcMove _ _ _ _ => true
  | _ => false

end Action

/-! ## Groups -/

namespace WordGroup

theorem motionActions_isMotionPart (g : WordGroup) :
    ∀ action ∈ g.motionActions, action.isMotionPart = true := by
  intro action ha
  unfold motionActions at ha
  split at ha
  · rename_i kind hk
    rcases List.mem_append.mp ha with ha | ha
    · split at ha
      · cases ha
      · rw [List.mem_singleton.mp ha]
        rfl
    · rw [Option.mem_toList] at ha
      unfold motion? at ha
      split at ha
      · cases ha
        cases kind <;> rfl
      · cases ha
  · cases ha

theorem offsetActions_isOffset (g : WordGroup) :
    ∀ action ∈ g.offsetActions, action.isOffset = true := by
  intro action ha
  unfold offsetActions at ha
  split at ha
  · cases ha
  · split at ha
    · cases ha
    · rw [List.mem_singleton.mp ha]
      rfl

end WordGroup

/-- An axis offset belongs to no motion group. -/
theorem Action.isMotionPart_of_isOffset {action : Action} (h : action.isOffset = true) :
    action.isMotionPart = false := by
  cases action <;> first | rfl | cases h

/-! ## Lines -/

namespace Draft

/-- The words of a line under a motion mode. -/
def ofLine (mode : MotionKind) (text : String) : Draft :=
  (pushAll { motionMode := mode } (tokens text)).1

/-- The commands that come before those of the word groups. -/
def settings (d : Draft) : List Action :=
  d.comment.toList.map .comment ++
  (if d.noOp then [.noOp] else []) ++
  d.feedRate.toList.map .setFeedRate ++
  d.spindleSpeed.toList.map (fun rpm => .auxiliary (.spindleSpeed rpm)) ++
  d.tool.toList.map (fun tool => .auxiliary (.selectTool tool)) ++
  d.machineActions.map .auxiliary ++
  d.dwellActions ++
  d.plane.toList.map (fun chosen => .selectPlane chosen.value) ++
  d.units.toList.map (fun chosen => .setUnits chosen.value) ++
  d.distanceMode.toList.map (fun chosen => .setDistanceMode chosen.value) ++
  d.workOffset.toList.map (fun chosen => .selectWorkOffset chosen.value) ++
  (if d.clearAxisOffset then [.clearAxisOffset] else [])

theorem actions_eq (d : Draft) :
    d.actions =
      d.settings ++ d.groups.flatMap WordGroup.offsetActions ++
        d.groups.flatMap WordGroup.motionActions ++ d.programFlow.map .auxiliary := rfl

theorem settings_plain (d : Draft) :
    ∀ action ∈ d.settings, action.isOffset = false ∧ action.isMotionPart = false := by
  intro action ha
  simp only [settings, dwellActions, List.mem_append, List.mem_map] at ha
  rcases ha with ((((((((((⟨_, -, rfl⟩ | ha) | ⟨_, -, rfl⟩) | ⟨_, -, rfl⟩) | ⟨_, -, rfl⟩) | ⟨_, -, rfl⟩)
    | ha) | ⟨_, -, rfl⟩) | ⟨_, -, rfl⟩) | ⟨_, -, rfl⟩) | ⟨_, -, rfl⟩) | ha
  case inl.inl.inl.inl.inl.inl.inl.inl.inl.inl.inr | inr =>
    split at ha
    · rw [List.mem_singleton.mp ha]
      exact ⟨rfl, rfl⟩
    · cases ha
  case inl.inl.inl.inl.inl.inr =>
    split at ha
    · rw [List.mem_singleton.mp ha]
      exact ⟨rfl, rfl⟩
    · cases ha
  all_goals exact ⟨rfl, rfl⟩

/-- What does not distinguish settings and stops from other commands sees the word groups only. -/
theorem filter_actions (d : Draft) {p : Action → Bool} (hset : ∀ action ∈ d.settings, p action = false)
    (hflow : ∀ action, p (.auxiliary action) = false) :
    d.actions.filter p =
      (d.groups.flatMap WordGroup.offsetActions).filter p ++
        (d.groups.flatMap WordGroup.motionActions).filter p := by
  have hs : d.settings.filter p = [] := by
    rw [List.filter_eq_nil_iff]
    intro action ha
    rw [hset action ha]
    exact Bool.false_ne_true
  have hf : (d.programFlow.map Action.auxiliary).filter p = [] := by
    rw [List.filter_map, List.map_eq_nil_iff, List.filter_eq_nil_iff]
    intro action _
    rw [Function.comp_apply, hflow action]
    exact Bool.false_ne_true
  rw [actions_eq, List.filter_append, List.filter_append, List.filter_append, hs, hf,
    List.nil_append, List.append_nil]

/-- The axis offsets of a line are those of its groups. -/
theorem filter_isOffset (d : Draft) :
    d.actions.filter Action.isOffset = d.groups.flatMap WordGroup.offsetActions := by
  have ho : (d.groups.flatMap WordGroup.offsetActions).filter Action.isOffset =
      d.groups.flatMap WordGroup.offsetActions := by
    rw [List.filter_eq_self]
    intro action ha
    obtain ⟨g, -, ha⟩ := List.mem_flatMap.mp ha
    exact g.offsetActions_isOffset action ha
  have hm : (d.groups.flatMap WordGroup.motionActions).filter Action.isOffset = [] := by
    rw [List.filter_eq_nil_iff]
    intro action ha hoff
    obtain ⟨g, -, ha⟩ := List.mem_flatMap.mp ha
    have hpart := g.motionActions_isMotionPart action ha
    rw [Action.isMotionPart_of_isOffset hoff] at hpart
    cases hpart
  rw [d.filter_actions (fun action ha => (d.settings_plain action ha).1) (fun _ => rfl), ho, hm,
    List.append_nil]

/-- The commands of motion groups are those of a line that set a motion mode or move. -/
theorem filter_isMotionPart (d : Draft) :
    d.actions.filter Action.isMotionPart = d.groups.flatMap WordGroup.motionActions := by
  have ho : (d.groups.flatMap WordGroup.offsetActions).filter Action.isMotionPart = [] := by
    rw [List.filter_eq_nil_iff]
    intro action ha
    obtain ⟨g, -, ha⟩ := List.mem_flatMap.mp ha
    rw [Action.isMotionPart_of_isOffset (g.offsetActions_isOffset action ha)]
    exact Bool.false_ne_true
  have hm : (d.groups.flatMap WordGroup.motionActions).filter Action.isMotionPart =
      d.groups.flatMap WordGroup.motionActions := by
    rw [List.filter_eq_self]
    intro action ha
    obtain ⟨g, -, ha⟩ := List.mem_flatMap.mp ha
    exact g.motionActions_isMotionPart action ha
  rw [d.filter_actions (fun action ha => (d.settings_plain action ha).2) (fun _ => rfl), ho, hm,
    List.nil_append]

/-- All that can be wrong with a line as a whole. -/
theorem mem_leftovers {d : Draft} {cause : Cause} (h : cause ∈ d.leftovers) :
    cause = .block (.missingWord "G4" 'P') ∨
      cause = .block (.unexpectedWord 'P' "P is only used with G4") ∨
      cause = .block (.missingWord "G92" 'X') ∨ cause = .ignoredRadius := by
  simp only [leftovers, List.mem_append, List.mem_flatMap] at h
  rcases h with (h | ⟨g, -, h⟩) | ⟨g, -, h⟩
  · unfold dwellProblems at h
    split at h
    · exact .inl (List.mem_singleton.mp h)
    · exact .inr (.inl (List.mem_singleton.mp h))
    · cases h
  · unfold WordGroup.offsetProblems at h
    split at h
    · cases h
    · split at h
      · exact .inr (.inr (.inl (List.mem_singleton.mp h)))
      · cases h
  · unfold WordGroup.radiusProblems at h
    split at h
    · exact .inr (.inr (.inr (List.mem_singleton.mp h)))
    · cases h

end Draft

/-- The commands of a line are those of its words. -/
theorem Block.actions_eq (line : Nat) (mode : MotionKind) (text : String) :
    (Block.ofLine line mode text).commands.map Command.action = (Draft.ofLine mode text).actions := by
  simp [Block.ofLine, Block.ofTokens, Draft.ofLine, Function.comp_def]

end Toolpath
