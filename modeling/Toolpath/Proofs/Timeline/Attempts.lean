import Toolpath.Proofs.Machine.Effect
import Toolpath.Proofs.Timeline.Continuation

/-!
# What becomes of commands

The loops of `run_pipeline`, command by command. Each command of a line is tried on the machine that the
commands before it leave, and is done or refused. What the course brings forth is what came of its
commands, the problems of its texts, and at most one note.

* `Attempt`: a command with the machine before it, what came of it, and the machine after it.
* `Attempt.Lawful`: all that can become of a command.
* `Linked`: attempts of which each starts from the machine that the one before it leaves.
* `Course`: the attempts of lines, each line read under the machine at its beginning.
* `Stretch`: a part of a course brings forth what came of its attempts (`Stretch.append`).
* `Timeline.entriesFrom_attempts`: every course is made of attempts and brings forth what came of them.
-/

namespace Toolpath

/-! ## Commands on a machine -/

/-- Whether a command ends the program. -/
def Action.endsProgram : Action → Bool
  | .auxiliary .programEnd => true
  | _ => false

theorem Action.eq_programEnd_of_endsProgram {action : Action} (h : action.endsProgram = true) :
    action = .auxiliary .programEnd := by
  unfold endsProgram at h
  split at h
  · rfl
  · cases h

theorem Action.isMotion_of_endsProgram {action : Action} (h : action.endsProgram = true) :
    action.isMotion = false := by
  rw [eq_programEnd_of_endsProgram h]
  rfl

namespace Machine

variable {setup : Setup} {m m' : Machine} {action : Action} {motion : Option Motion} {cause : MotionError}

/-- What a command that is carried out does apart from the machine's place: motions make a motion and
nothing else does, and only the end of the program ends it. -/
theorem apply_ok_cases (h : m.apply setup action = .ok (m', motion)) :
    motion.isSome = action.isMotion ∧ m'.programEnded = (m.programEnded || action.endsProgram) := by
  cases action with
  | linearMove rapid target =>
    obtain ⟨stop, -, h⟩ := exists_of_bind_ok h
    cases h
    exact ⟨rfl, (Bool.or_false _).symm⟩
  | arcMove clockwise target center radius =>
    obtain ⟨stop, -, h⟩ := exists_of_bind_ok h
    obtain ⟨arc, -, h⟩ := exists_of_bind_ok h
    cases h
    exact ⟨rfl, (Bool.or_false _).symm⟩
  | setAxisOffset words =>
    obtain ⟨offset, -, h⟩ := exists_of_bind_ok h
    cases h
    exact ⟨rfl, (Bool.or_false _).symm⟩
  | auxiliary action =>
    cases h
    cases action with
    | programEnd => exact ⟨rfl, (Bool.or_true _).symm⟩
    | _ => exact ⟨rfl, (Bool.or_false _).symm⟩
  | _ =>
    cases h
    exact ⟨rfl, (Bool.or_false _).symm⟩

/-- Only motions and axis offsets can be refused. -/
theorem apply_error_cases (h : m.apply setup action = .error cause) (hm : action.isMotion = false) :
    ∃ words, action = .setAxisOffset words := by
  cases action with
  | linearMove | arcMove => cases hm
  | setAxisOffset words => exact ⟨words, rfl⟩
  | _ => cases h

end Machine

/-! ## Attempts -/

/-- A command that was tried. -/
structure Attempt where
  command : Command
  /-- The machine that the command was tried on. -/
  before : Machine
  /-- The motion that was made, if one was, or why the command was refused. -/
  outcome : Except MotionError (Option Motion)
  /-- The machine that it left. -/
  after : Machine

namespace Attempt

/-- What a course brings forth for an attempt. -/
def report? (a : Attempt) : Option Entry :=
  match a.outcome with
  | .ok motion => motion.map (.moved a.command.line)
  | .error cause => some (.noted (.onLine a.command.line (.motion cause)))

/-- The motion that was made, with its line. -/
def move? (a : Attempt) : Option (Nat × Motion) := a.report?.bind Entry.motion?

/-- What was noted of a refusal. -/
def refusal? (a : Attempt) : Option Diagnostic := a.report?.bind Entry.problem?

/-- Whether the attempt is a motion after the program's end. -/
def isLate (a : Attempt) : Bool := a.command.isMotion && a.before.programEnded

/-- All that can become of a command. -/
inductive Lawful (setup : Setup) : Attempt → Prop where
  /-- The command is carried out. -/
  | done {command : Command} {before after : Machine} {motion : Option Motion}
    (h : before.apply setup command.action = .ok (after, motion)) :
    Lawful setup ⟨command, before, .ok motion, after⟩
  /-- A refused motion changes nothing but the motion mode. -/
  | refusedMotion {command : Command} {before : Machine} {cause : MotionError} (mode : MotionKind)
    (h : before.apply setup command.action = .error cause) (hm : command.isMotion = true) :
    Lawful setup ⟨command, before, .error cause, { before with motionMode := mode }⟩
  /-- Of other commands only axis offsets can be refused, and nothing changes. -/
  | refusedOffset {line : Nat} {words : AxisWords} {before : Machine} {cause : MotionError}
    (h : before.apply setup (.setAxisOffset words) = .error cause) :
    Lawful setup ⟨⟨line, .setAxisOffset words⟩, before, .error cause, before⟩

namespace Lawful

variable {setup : Setup} {a : Attempt}

/-- A motion is either made or refused. -/
theorem isSome_of_isMotion (h : a.Lawful setup) (ha : a.command.isMotion = true) :
    a.move?.isSome = !a.refusal?.isSome := by
  cases h with
  | done h =>
    obtain ⟨motion, rfl⟩ := Option.isSome_iff_exists.mp ((Machine.apply_ok_cases h).1.trans ha)
    rfl
  | refusedMotion | refusedOffset => rfl

/-- Other commands never move, and one that is refused is an axis offset and changes nothing. -/
theorem of_not_isMotion (h : a.Lawful setup) (ha : a.command.isMotion = false) :
    a.move? = none ∧ (a.refusal?.isSome = true →
      (∃ words, a.command.action = .setAxisOffset words) ∧ a.after = a.before) := by
  cases h with
  | @done _ _ _ motion h =>
    cases motion with
    | none => exact ⟨rfl, fun hr => by cases hr⟩
    | some motion => cases (Machine.apply_ok_cases h).1.trans ha
  | refusedMotion mode h hm =>
    rw [hm] at ha
    cases ha
  | refusedOffset h => exact ⟨rfl, fun _ => ⟨⟨_, rfl⟩, rfl⟩⟩

theorem programEnded (h : a.Lawful setup) :
    a.after.programEnded = (a.before.programEnded || a.command.action.endsProgram) := by
  cases h with
  | done h => exact (Machine.apply_ok_cases h).2
  | @refusedMotion command before cause mode h hm =>
    have hends : command.action.endsProgram = false := by
      rw [Bool.eq_false_iff]
      intro he
      rw [Command.isMotion, Action.isMotion_of_endsProgram he] at hm
      cases hm
    exact ((congrArg _ hends).trans (Bool.or_false _)).symm
  | refusedOffset h => exact (Bool.or_false _).symm

end Lawful

end Attempt

/-- Attempts of which each starts from the machine that the one before it leaves. -/
inductive Linked (setup : Setup) : Machine → List Attempt → Machine → Prop where
  | nil {m : Machine} : Linked setup m [] m
  | cons {a : Attempt} {tried : List Attempt} {m : Machine} (ha : a.Lawful setup)
    (h : Linked setup a.after tried m) : Linked setup a.before (a :: tried) m

namespace Linked

variable {setup : Setup} {m m' m'' : Machine} {tried rest : List Attempt}

theorem append (h : Linked setup m tried m') (h' : Linked setup m' rest m'') :
    Linked setup m (tried ++ rest) m'' := by
  induction h with
  | nil => exact h'
  | cons ha _ ih => exact .cons ha (ih h')

theorem lawful (h : Linked setup m tried m') : ∀ a ∈ tried, a.Lawful setup := by
  induction h with
  | nil => exact fun a ha => absurd ha List.not_mem_nil
  | cons ha _ ih => exact List.forall_mem_cons.mpr ⟨ha, ih⟩

end Linked

/-- The attempts of lines that are numbered from some number on. The commands of a line are those that its
text has under the machine at the line's beginning. -/
inductive Course (setup : Setup) : Machine → Nat → List String → List Attempt → Machine → Prop where
  | nil {m : Machine} {line : Nat} : Course setup m line [] [] m
  | cons {m m' m'' : Machine} {line : Nat} {text : String} {lines : List String} {tried rest : List Attempt}
    (hl : Linked setup m tried m')
    (hc : tried.map Attempt.command = (Block.ofLine line m.motionMode text).commands)
    (h : Course setup m' (line + 1) lines rest m'') :
    Course setup m line (text :: lines) (tried ++ rest) m''

/-! ## What attempts bring forth -/

/-- Whether a problem is that the machine refused a command. -/
def Diagnostic.isRefusal (d : Diagnostic) : Bool := d.cause.kind = .simulation && d.isError

/-- Whether an entry is what came of a command: a motion that was made, or a refusal. -/
def Entry.isReport : Entry → Bool
  | .moved _ _ => true
  | .noted problem => problem.isRefusal

theorem Entry.isReport_noted (d : Diagnostic) : (Entry.noted d).isReport = d.isRefusal := rfl

/-- The first motion after the program's end, if none was noted before. -/
def firstLate? (warned : Bool) (tried : List Attempt) : Option Attempt :=
  if warned then none else tried.find? Attempt.isLate

theorem firstLate?_append (warned : Bool) (tried rest : List Attempt) :
    (firstLate? warned (tried ++ rest)).toList =
      (firstLate? warned tried).toList ++ (firstLate? (warned || tried.any Attempt.isLate) rest).toList := by
  unfold firstLate?
  cases warned with
  | true => rfl
  | false =>
    rw [List.find?_append]
    cases ha : tried.find? Attempt.isLate with
    | none =>
      have hany : tried.any Attempt.isLate = false := by simpa using ha
      simp [hany]
    | some a =>
      have hany : tried.any Attempt.isLate = true :=
        List.any_eq_true.mpr ⟨a, List.mem_of_find?_eq_some ha, List.find?_some ha⟩
      simp [hany]

/-- The note on a motion after the program's end. -/
def Attempt.note (a : Attempt) : Entry := .noted (.onLine a.command.line .motionAfterEnd)

/-- What an attempt brings forth is a report, and not the note on a late motion. -/
theorem Attempt.isReport_of_report? {a : Attempt} {e : Entry} (h : a.report? = some e) :
    e.isReport = true ∧ e.notesEnd = false := by
  unfold Attempt.report? at h
  split at h
  · obtain ⟨motion, -, rfl⟩ := Option.map_eq_some_iff.mp h
    exact ⟨rfl, rfl⟩
  · cases h
    exact ⟨rfl, rfl⟩

/-- A part of a course with its attempts and what it brings forth. -/
structure Stretch (setup : Setup) (p : Progress) (tried : List Attempt) (out : List Entry) (q : Progress) :
    Prop where
  linked : Linked setup p.machine tried q.machine
  reports : out.filter Entry.isReport = tried.filterMap Attempt.report?
  notes : out.filter Entry.notesEnd = (firstLate? p.warned tried).toList.map Attempt.note
  warned : q.warned = (p.warned || tried.any Attempt.isLate)

namespace Stretch

variable {setup : Setup} {p q r : Progress} {tried rest : List Attempt} {xs ys : List Entry}

theorem nil : Stretch setup p [] [] p where
  linked := .nil
  reports := rfl
  notes := by
    unfold firstLate?
    split <;> rfl
  warned := (Bool.or_false _).symm

/-- Two parts of a course, one after the other. -/
theorem append (h : Stretch setup p tried xs q) (h' : Stretch setup q rest ys r) :
    Stretch setup p (tried ++ rest) (xs ++ ys) r where
  linked := h.linked.append h'.linked
  reports := by rw [List.filter_append, List.filterMap_append, h.reports, h'.reports]
  notes := by
    rw [List.filter_append, h.notes, h'.notes, firstLate?_append, List.map_append, h.warned]
  warned := by rw [h'.warned, h.warned, List.any_append, Bool.or_assoc]

/-- The problems of a text come of no command. -/
theorem ofDiagnostics (line : Nat) (mode : MotionKind) (text : String) :
    Stretch setup p [] ((Block.ofLine line mode text).diagnostics.map .noted) p :=
  { (nil : Stretch setup p [] [] p) with
    reports := by
      rw [List.filterMap_nil, List.filter_eq_nil_iff]
      intro e he
      obtain ⟨d, hd, rfl⟩ := List.mem_map.mp he
      rw [Entry.isReport_noted, Diagnostic.isRefusal]
      rcases Block.diagnostics_kind line mode text d hd with hk | hk <;> simp [hk]
    notes := by
      have hnotes := List.any_eq_false.mp (Block.diagnostics_notesEnd line mode text)
      rw [List.filter_eq_nil_iff.mpr hnotes]
      exact (nil : Stretch setup p [] [] p).notes }

end Stretch

/-! ## The attempts of a course -/

namespace LineProgress

variable {setup : Setup} {s : LineProgress} {line : Nat} {action : Action} {a : Attempt}

theorem filter_warnings : (s.warnings line action).filter Entry.isReport = [] ∧
    (s.warnings line action).filter Entry.notesEnd = s.warnings line action := by
  unfold warnings
  split <;> exact ⟨rfl, rfl⟩

/-- The first motion after the program's end is the first late attempt. -/
theorem firstAfterEnd_eq (hc : a.command = ⟨line, action⟩) (hb : a.before = s.progress.machine) :
    s.firstAfterEnd action = (a.isLate && !s.progress.warned) := by
  rw [firstAfterEnd, Attempt.isLate, hc, hb]
  rfl

/-- A command that becomes an attempt brings forth what came of it, after the note if it is due. -/
theorem stretch_of_lawful (ha : a.Lawful setup) (hc : a.command = ⟨line, action⟩)
    (hb : a.before = s.progress.machine) :
    Stretch setup s.progress [a] (s.warnings line action ++ a.report?.toList)
      { machine := a.after, warned := s.progress.warned || s.firstAfterEnd action } where
  linked := hb ▸ .cons ha .nil
  reports := by
    have hr : a.report?.toList.filter Entry.isReport = a.report?.toList := by
      rw [List.filter_eq_self]
      exact fun e he => (Attempt.isReport_of_report? (Option.mem_toList.mp he)).1
    rw [List.filter_append, filter_warnings.1, hr]
    cases h : a.report? <;> simp [h]
  notes := by
    have hr : a.report?.toList.filter Entry.notesEnd = [] := by
      rw [List.filter_eq_nil_iff]
      intro e he
      rw [(Attempt.isReport_of_report? (Option.mem_toList.mp he)).2]
      exact Bool.false_ne_true
    have hnote : a.note = .noted (.onLine line .motionAfterEnd) := by rw [Attempt.note, hc]
    rw [List.filter_append, filter_warnings.2, hr, List.append_nil, warnings, firstAfterEnd_eq hc hb,
      ← hnote, firstLate?]
    cases s.progress.warned <;> cases hl : a.isLate <;> simp [hl]
  warned := by
    rw [firstAfterEnd_eq hc hb]
    cases s.progress.warned <;> simp

/-- A refused command becomes an attempt. -/
theorem lawful_of_error {cause : MotionError} (h : s.progress.machine.apply setup action = .error cause) :
    Attempt.Lawful setup ⟨⟨line, action⟩, s.progress.machine, .error cause, s.afterRefusal action⟩ := by
  unfold afterRefusal
  cases hm : action.isMotion with
  | true =>
    cases s.modeBefore with
    | none => exact .refusedMotion s.progress.machine.motionMode h hm
    | some mode => exact .refusedMotion mode h hm
  | false =>
    obtain ⟨words, rfl⟩ := Machine.apply_error_cases h hm
    exact .refusedOffset h

/-- A command becomes one attempt. -/
theorem command_attempt (setup : Setup) (line : Nat) (s : LineProgress) (action : Action) :
    ∃ a : Attempt, a.command = ⟨line, action⟩ ∧
      Stretch setup s.progress [a] (s.command setup line action).2
        (s.command setup line action).1.progress := by
  cases h : s.progress.machine.apply setup action with
  | ok done =>
    obtain ⟨machine, motion⟩ := done
    have ha : Attempt.Lawful setup ⟨⟨line, action⟩, s.progress.machine, .ok motion, machine⟩ := .done h
    have hs := stretch_of_lawful (s := s) ha rfl rfl
    refine ⟨⟨⟨line, action⟩, s.progress.machine, .ok motion, machine⟩, rfl, ?_⟩
    rw [command_of_ok line h]
    cases motion <;> exact hs
  | error cause =>
    have ha : Attempt.Lawful setup
        ⟨⟨line, action⟩, s.progress.machine, .error cause, s.afterRefusal action⟩ := lawful_of_error h
    have hs := stretch_of_lawful (s := s) ha rfl rfl
    refine ⟨⟨⟨line, action⟩, s.progress.machine, .error cause, s.afterRefusal action⟩, rfl, ?_⟩
    rw [command_of_error line h]
    exact hs

/-- Commands become attempts one by one. -/
theorem emitAll_attempts (setup : Setup) (line : Nat) (s : LineProgress) (actions : List Action) :
    ∃ tried : List Attempt, tried.map Attempt.command = actions.map (Command.mk line) ∧
      Stretch setup s.progress tried (emitAll (command setup line) s actions).2.toList
        (emitAll (command setup line) s actions).1.progress := by
  induction actions generalizing s with
  | nil => exact ⟨[], rfl, .nil⟩
  | cons action actions ih =>
    obtain ⟨a, ha, hs⟩ := s.command_attempt setup line action
    obtain ⟨tried, htried, hrest⟩ := ih (s.command setup line action).1
    refine ⟨a :: tried, ?_, ?_⟩
    · rw [List.map_cons, List.map_cons, ha, htried]
    · rw [emitAll_cons, Array.toList_append]
      exact hs.append hrest

end LineProgress

/-- The commands of a block all stand on its line. -/
theorem Block.commands_eq (line : Nat) (mode : MotionKind) (text : String) :
    (Block.ofLine line mode text).commands = (Draft.ofLine mode text).actions.map (Command.mk line) := by
  simp only [Block.ofLine, Block.ofTokens, Draft.ofLine]

/-- The commands of a line become attempts. -/
theorem Progress.line_attempts (setup : Setup) (p : Progress) (text : String) (line : Nat) :
    ∃ tried : List Attempt,
      tried.map Attempt.command = (Block.ofLine line p.machine.motionMode text).commands ∧
      Stretch setup p tried (p.line setup (text, line)).2 (p.line setup (text, line)).1 := by
  obtain ⟨tried, htried, hs⟩ := LineProgress.emitAll_attempts setup line { progress := p }
    (Draft.ofLine p.machine.motionMode text).actions
  refine ⟨tried, htried.trans (Block.commands_eq _ _ _).symm, ?_⟩
  have ht : Stretch setup p [] ((Block.ofLine line p.machine.motionMode text).diagnostics.map .noted) p :=
    .ofDiagnostics line p.machine.motionMode text
  rw [line_fst, line_snd, commands, Block.actions_eq]
  dsimp only
  exact ht.append hs

/-- **Courses are made of attempts**, and bring forth what came of them. -/
theorem Timeline.entriesFrom_attempts (setup : Setup) (p : Progress) (first : Nat) (lines : List String) :
    ∃ tried : List Attempt,
      Course setup p.machine first lines tried (entriesFrom setup p first lines).1.machine ∧
      Stretch setup p tried (entriesFrom setup p first lines).2.toList
        (entriesFrom setup p first lines).1 := by
  unfold entriesFrom
  induction lines generalizing p first with
  | nil => exact ⟨[], .nil, .nil⟩
  | cons text lines ih =>
    obtain ⟨tried, hc, hs⟩ := p.line_attempts setup text first
    obtain ⟨rest, hcourse, hrest⟩ := ih (p.line setup (text, first)).1 (first + 1)
    rw [List.zipIdx_cons, emitAll_cons, Array.toList_append]
    dsimp only
    exact ⟨tried ++ rest, .cons hs.linked hc hcourse, hs.append hrest⟩

end Toolpath
