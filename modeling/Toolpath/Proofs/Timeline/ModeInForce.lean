import Toolpath.Proofs.Block.Shape
import Toolpath.Proofs.Timeline.Refusal

/-!
# The mode in force

`LineParser.parse_line` reads a line once, under the motion mode at its beginning, while `run_pipeline`
changes the mode group by group and goes back when a motion is refused (`mode_before_group`). The two
never drift apart: every motion meets a machine in its own mode, and a refused one leaves the machine
that its group of words found.

* `Progress.upTo`: how far a line has come after some of its commands.
* `LineProgress.command_aside`, `Progress.upTo_aside`: only the commands of motion groups touch the mode and
  the mode to fall back to.
* `GroupBegins`: where the group of a motion begins among the commands of its line.
* `Progress.motion_meets_mode`: every motion of every line.
-/

namespace Toolpath

/-! ## Commands of no motion group -/

/-- Only the commands of motion groups change the motion mode. -/
theorem Machine.apply_motionMode {setup : Setup} {m m' : Machine} {action : Action} {motion : Option Motion}
    (h : m.apply setup action = .ok (m', motion)) (ha : action.isMotionPart = false) :
    m'.motionMode = m.motionMode := by
  cases action with
  | setMotionMode | linearMove | arcMove => cases ha
  | setAxisOffset words =>
    obtain ⟨offset, -, h⟩ := exists_of_bind_ok h
    cases h
    rfl
  | auxiliary action =>
    cases h
    cases action <;> rfl
  | _ =>
    cases h
    rfl

theorem Action.isMotion_of_not_isMotionPart {action : Action} (h : action.isMotionPart = false) :
    action.isMotion = false := by
  cases action <;> first | rfl | cases h

theorem Action.isMotion_of_motionKind? {action : Action} {kind : MotionKind}
    (h : action.motionKind? = some kind) : action.isMotion = true := by
  cases action <;> first | rfl | cases h

namespace LineProgress

/-- Two places on a line with the same mode in force, and the same one to fall back to. -/
structure SameMode (s t : LineProgress) : Prop where
  mode : t.progress.machine.motionMode = s.progress.machine.motionMode
  modeBefore : t.modeBefore = s.modeBefore

theorem SameMode.trans {s t u : LineProgress} (h : s.SameMode t) (h' : t.SameMode u) : s.SameMode u where
  mode := h'.mode.trans h.mode
  modeBefore := h'.modeBefore.trans h.modeBefore

/-- A command of no motion group keeps the mode and what to fall back to, done or refused. -/
theorem command_aside (setup : Setup) (line : Nat) (s : LineProgress) {action : Action}
    (ha : action.isMotionPart = false) : s.SameMode (s.command setup line action).1 := by
  have hmotion := Action.isMotion_of_not_isMotionPart ha
  have hfallback : s.fallback action = s.modeBefore := by
    cases action <;> first | rfl | cases ha
  cases h : s.progress.machine.apply setup action with
  | ok done =>
    rw [command_of_ok line h, hmotion, hfallback]
    exact ⟨Machine.apply_motionMode h ha, rfl⟩
  | error cause =>
    have hback : s.afterRefusal action = s.progress.machine := by
      simp only [afterRefusal, hmotion]
    rw [command_of_error line h, hmotion, hfallback, hback]
    exact ⟨rfl, rfl⟩

/-- A refused motion leaves the mode to fall back to in force. -/
theorem machine_of_refused {setup : Setup} (line : Nat) {s : LineProgress} {action : Action}
    {cause : MotionError} (hm : action.isMotion = true)
    (h : s.progress.machine.apply setup action = .error cause) :
    (s.command setup line action).1.progress.machine =
      { s.progress.machine with motionMode := s.modeBefore.getD s.progress.machine.motionMode } := by
  rw [command_of_error line h]
  dsimp only
  rw [afterRefusal, hm]
  cases s.modeBefore <;> rfl

end LineProgress

/-! ## Parts of a line -/

namespace Progress

variable {setup : Setup} {line : Nat} {p : Progress}

/-- How far a line has come after some of its commands. -/
def upTo (setup : Setup) (line : Nat) (p : Progress) (done : List Action) : LineProgress :=
  (emitAll (LineProgress.command setup line) { progress := p } done).1

theorem upTo_concat (done : List Action) (action : Action) :
    p.upTo setup line (done ++ [action]) = ((p.upTo setup line done).command setup line action).1 := by
  rw [upTo, emitAll_append, emitAll_cons]
  rfl

/-- Until the first command of a motion group, the mode is that of the line's beginning. -/
theorem upTo_aside (setup : Setup) (line : Nat) (p : Progress) {done : List Action}
    (h : ∀ action ∈ done, action.isMotionPart = false) :
    LineProgress.SameMode { progress := p } (p.upTo setup line done) := by
  have hstep : ∀ s : LineProgress, ∀ action ∈ done, s.SameMode (s.command setup line action).1 :=
    fun s action ha => s.command_aside setup line (h action ha)
  refine emitAll_rel (R := fun s (_ : List Entry) t => LineProgress.SameMode s t) ?_ ?_ _ done hstep
  · exact fun s => ⟨rfl, rfl⟩
  · exact fun s xs t ys u ht hu => ht.trans hu

end Progress

/-- Where the group of a motion begins on a line that is read under a mode. Of the commands `before` the
motion, those of earlier groups are `earlier`: all but the code of the group, or simply all if the motion
follows the mode of the line. -/
inductive GroupBegins (mode kind : MotionKind) (before : List Action) : (earlier : List Action) → Prop where
  | coded {earlier : List Action} (h : before = earlier ++ [.setMotionMode kind]) :
    GroupBegins mode kind before earlier
  | implicit (hkind : kind = mode) (hfirst : ∀ other ∈ before, other.isMotionPart = false) :
    GroupBegins mode kind before before

theorem Introduced.groupBegins {mode kind : MotionKind} {actions before after : List Action}
    {action : Action} (h : Introduced (some mode) actions) (hs : actions = before ++ action :: after)
    (hk : action.motionKind? = some kind) : ∃ earlier, GroupBegins mode kind before earlier := by
  rcases h before action after kind hs hk with hlast | ⟨hmode, hfirst⟩
  · obtain ⟨earlier, rfl⟩ := List.getLast?_eq_some_iff.mp hlast
    exact ⟨earlier, .coded rfl⟩
  · exact ⟨before, .implicit (Option.some.inj hmode).symm hfirst⟩

namespace Progress

variable {p : Progress} {before earlier : List Action} {kind : MotionKind}

/-- A motion meets a machine in its own mode. Apart from that, and with that mode to fall back to, it is the
machine that the group found. -/
theorem upTo_of_groupBegins (setup : Setup) (line : Nat)
    (h : GroupBegins p.machine.motionMode kind before earlier) :
    (p.upTo setup line before).progress.machine =
        { (p.upTo setup line earlier).progress.machine with motionMode := kind } ∧
      (p.upTo setup line before).modeBefore.getD kind =
        (p.upTo setup line earlier).progress.machine.motionMode := by
  cases h with
  | coded h =>
    rw [h, upTo_concat]
    exact ⟨rfl, rfl⟩
  | implicit hkind hfirst =>
    obtain ⟨hmode, hback⟩ := upTo_aside setup line p hfirst
    dsimp only at hmode hback
    rw [hback, hmode, hkind]
    refine ⟨?_, rfl⟩
    rw [← hmode]

/-- **The mode in force.** Whatever a course has come to and whatever its next line says: every motion of the
line is tried on a machine in the motion's own mode, and if it is refused, the machine afterwards is the one
that the motion's group found. -/
theorem motion_meets_mode (setup : Setup) (p : Progress) (text : String) (line : Nat)
    {before after : List Action} {action : Action} {kind : MotionKind}
    (hs : (Block.ofLine line p.machine.motionMode text).commands.map Command.action =
      before ++ action :: after)
    (hk : action.motionKind? = some kind) :
    (p.upTo setup line before).progress.machine.motionMode = kind ∧
      ∃ earlier, GroupBegins p.machine.motionMode kind before earlier ∧
        ∀ cause, (p.upTo setup line before).progress.machine.apply setup action = .error cause →
          (p.upTo setup line (before ++ [action])).progress.machine =
            (p.upTo setup line earlier).progress.machine := by
  have hintro : Introduced (some p.machine.motionMode)
      ((Block.ofLine line p.machine.motionMode text).commands.map Command.action) := by
    rw [Block.actions_eq]
    exact Draft.introduced_ofTokens p.machine.motionMode (tokens text)
  obtain ⟨earlier, hg⟩ := hintro.groupBegins hs hk
  obtain ⟨hmachine, hback⟩ := upTo_of_groupBegins setup line hg
  have hmode : (p.upTo setup line before).progress.machine.motionMode = kind := by rw [hmachine]
  refine ⟨hmode, earlier, hg, fun cause hc => ?_⟩
  rw [upTo_concat, LineProgress.machine_of_refused line (Action.isMotion_of_motionKind? hk) hc, hmode,
    hback, hmachine]

/-- An arc that is too wide for its radius, after a motion under the mode of the line: the machine falls back
to that mode, where the first motion left it. -/
theorem wide_arc_meets_mode :
    let p : Progress := { machine := .ofSetup {} }
    let first : Action := .linearMove true ⟨some 1, none, none, none, none, none⟩
    let arc : Action := .arcMove true ⟨some 5, none, none, none, none, none⟩ {} (some 1)
    let before := [first, .setMotionMode .arcClockwise]
    (Block.ofLine 0 p.machine.motionMode "X1 G2 X5 R1").commands.map Command.action = before ++ [arc] ∧
      (p.upTo {} 0 before).progress.machine.refuses {} arc = true ∧
      (p.upTo {} 0 before).progress.machine.motionMode = .arcClockwise ∧
      (p.upTo {} 0 (before ++ [arc])).progress.machine = (p.upTo {} 0 [first]).progress.machine ∧
      (p.upTo {} 0 [first]).progress.machine.motionMode = .rapid := by
  intro p first arc before
  have hs : (Block.ofLine 0 p.machine.motionMode "X1 G2 X5 R1").commands.map Command.action =
      before ++ [arc] := by decide +kernel
  have hrefused : (p.upTo {} 0 before).progress.machine.refuses {} arc = true := by decide +kernel
  obtain ⟨cause, hcause⟩ := Machine.exists_of_refuses hrefused
  obtain ⟨hmode, earlier, hg, hback⟩ := motion_meets_mode {} p "X1 G2 X5 R1" 0 hs rfl
  refine ⟨hs, hrefused, hmode, ?_, by decide +kernel⟩
  cases hg with
  | coded h =>
    obtain rfl : [first] = earlier := (List.append_inj' h rfl).1
    exact hback cause hcause
  | implicit hkind => cases hkind

end Progress

end Toolpath
