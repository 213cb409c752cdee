import Toolpath.Proofs.Block.Shape
import Toolpath.Proofs.Timeline.Chain
import Toolpath.Proofs.Timeline.Attempts

/-!
# Every command is accounted for

The output of `run_pipeline`. The moves and the problems of a program, derived from what became of its
commands.

* `Course.endsProgram_before`: a motion after the program's end stands on a later line.
* `Linked.find?_isLate`: the machine knows whether the program has ended.
* `Diagnostic.MayPrecede`: problems come line by line, on each line those of the text first
  (`Timeline.entriesFrom_ordered`).
* `Timeline.Accounted`, `Timeline.run_accounted`: all of it, for whole programs.
-/

namespace Toolpath

/-! ## The end of the program -/

/-- A line ends the program after all of its motions. -/
theorem Block.endsProgram_last (line : Nat) (mode : MotionKind) (text : String) :
    (Block.ofLine line mode text).commands.Pairwise fun a b =>
      a.action.endsProgram = true → b.isMotion = false := by
  have hd : (Draft.ofLine mode text).Staged := (Draft.staged_empty mode).pushAll _
  rw [Block.commands_eq, List.pairwise_map]
  refine hd.actions_pairwise.imp fun {a b} hab (ha : a.endsProgram = true) => ?_
  -- pauses and ends are the last stage of a line
  have hflow : a.stage = .flow := by
    rw [Action.eq_programEnd_of_endsProgram ha]
    rfl
  have hmotion : b.isMotion = true → b.stage = .motion := by
    intro hb
    cases b with
    | linearMove | arcMove => rfl
    | _ => cases hb
  rw [Command.isMotion, Bool.eq_false_iff]
  intro hb
  rw [hflow, hmotion hb] at hab
  exact absurd hab (by decide)

/-- The attempts of a line stand on it. -/
theorem Block.line_of_attempt {line : Nat} {mode : MotionKind} {text : String} {tried : List Attempt}
    (h : tried.map Attempt.command = (Block.ofLine line mode text).commands) :
    ∀ a ∈ tried, a.command.line = line := by
  intro a ha
  have hmem : a.command ∈ tried.map Attempt.command := List.mem_map_of_mem ha
  rw [h, Block.commands_eq] at hmem
  obtain ⟨action, -, heq⟩ := List.mem_map.mp hmem
  rw [← heq]

namespace Course

variable {setup : Setup} {m m' : Machine} {line : Nat} {lines : List String} {tried : List Attempt}

theorem line_le (h : Course setup m line lines tried m') : ∀ a ∈ tried, line ≤ a.command.line := by
  induction h with
  | nil => exact fun a ha => absurd ha List.not_mem_nil
  | cons hl hc h ih =>
    intro a ha
    rcases List.mem_append.mp ha with ha | ha
    · exact Nat.le_of_eq (Block.line_of_attempt hc a ha).symm
    · exact Nat.le_of_succ_le (ih a ha)

/-- A motion after a command that ends the program stands on a later line. -/
theorem endsProgram_before (h : Course setup m line lines tried m') :
    tried.Pairwise fun a b => a.command.action.endsProgram = true → b.command.isMotion = true →
      a.command.line < b.command.line := by
  induction h with
  | nil => exact .nil
  | @cons m m' m'' line text lines tried rest hl hc h ih =>
    have hlast := Block.endsProgram_last line m.motionMode text
    rw [← hc, List.pairwise_map] at hlast
    rw [List.pairwise_append]
    refine ⟨hlast.imp fun {a b} hab ha hb => ?_, ih, fun a ha b hb _ _ => ?_⟩
    · rw [hab ha] at hb
      cases hb
    · have hline := Block.line_of_attempt hc a ha
      have hle := h.line_le b hb
      omega

end Course

namespace Linked

variable {setup : Setup} {m m' : Machine} {tried : List Attempt}

/-- Once the program has ended it never goes on. -/
theorem find?_isLate_of_ended (h : Linked setup m tried m') (hm : m.programEnded = true) :
    tried.find? Attempt.isLate = tried.find? fun a => a.command.isMotion := by
  induction h with
  | nil => rfl
  | @cons a tried m ha h ih =>
    have hafter : a.after.programEnded = true := by rw [ha.programEnded, hm, Bool.true_or]
    have hlate : a.isLate = a.command.isMotion := by rw [Attempt.isLate, hm, Bool.and_true]
    rw [List.find?_cons, List.find?_cons, hlate, ih hafter]

/-- The first late attempt is the first motion after a command that ends the program. -/
theorem find?_isLate (h : Linked setup m tried m') (hm : m.programEnded = false) :
    tried.find? Attempt.isLate =
      (tried.dropWhile fun a => !a.command.action.endsProgram).find? fun a => a.command.isMotion := by
  induction h with
  | nil => rfl
  | @cons a tried m ha h ih =>
    have hlate : a.isLate = false := by rw [Attempt.isLate, hm, Bool.and_false]
    rw [List.find?_cons_of_neg (by rw [hlate]; exact Bool.false_ne_true)]
    cases he : a.command.action.endsProgram with
    | false =>
      rw [List.dropWhile_cons_of_pos (by rw [he]; rfl)]
      exact ih (by rw [ha.programEnded, hm, he]; rfl)
    | true =>
      have hmotion : a.command.isMotion = false := Action.isMotion_of_endsProgram he
      rw [List.dropWhile_cons_of_neg (by rw [he]; exact Bool.false_ne_true),
        List.find?_cons_of_neg (by rw [hmotion]; exact Bool.false_ne_true)]
      exact h.find?_isLate_of_ended (by rw [ha.programEnded, he, Bool.or_true])

end Linked

/-! ## The order of problems -/

/-- Whether a problem may come before another one: lines come in their order, and on one line the problems
of the text come before those of the machine. -/
def Diagnostic.MayPrecede (a b : Diagnostic) : Prop :=
  ∀ n k, a.line = some n → b.line = some k →
    n < k ∨ n = k ∧ (a.cause.kind = .simulation → b.cause.kind = .simulation)

theorem Entry.line?_of_problem? {e : Entry} {d : Diagnostic} (h : e.problem? = some d) :
    e.line? = d.line := by
  cases e with
  | moved => cases h
  | noted problem =>
    cases h
    rfl

/-- What commands bring forth are motions and problems of the machine. -/
theorem LineProgress.command_kind (setup : Setup) (line : Nat) (s : LineProgress) (action : Action) :
    ∀ e ∈ (s.command setup line action).2, ∀ d, e.problem? = some d → d.cause.kind = .simulation := by
  have hw : ∀ e ∈ s.warnings line action, ∀ d, e.problem? = some d → d.cause.kind = .simulation := by
    intro e he d hd
    unfold LineProgress.warnings at he
    split at he
    · rw [List.mem_singleton.mp he] at hd
      cases hd
      rfl
    · cases he
  intro e he d hd
  cases h : s.progress.machine.apply setup action with
  | ok done =>
    rw [command_of_ok line h, List.mem_append] at he
    rcases he with he | he
    · exact hw e he d hd
    · obtain ⟨motion, -, rfl⟩ := List.mem_map.mp he
      cases hd
  | error cause =>
    rw [command_of_error line h, List.mem_append] at he
    rcases he with he | he
    · exact hw e he d hd
    · rw [List.mem_singleton.mp he] at hd
      cases hd
      rfl

theorem Progress.commands_kind (setup : Setup) (p : Progress) (numbered : String × Nat) :
    ∀ d ∈ (p.commands setup numbered).2.toList.filterMap Entry.problem?, d.cause.kind = .simulation := by
  intro d hd
  obtain ⟨e, he, hd⟩ := List.mem_filterMap.mp hd
  rw [commands] at he
  exact emitAll_forall _ _ (fun s action _ => s.command_kind setup numbered.2 action) e he d hd

/-- The problems of a line: those of its text, then those of its commands. -/
theorem Progress.line_ordered (setup : Setup) (p : Progress) (numbered : String × Nat) :
    ((p.line setup numbered).2.filterMap Entry.problem?).Pairwise fun a b =>
      a.cause.kind = .simulation → b.cause.kind = .simulation := by
  have htext : ((Block.ofLine numbered.2 p.machine.motionMode numbered.1).diagnostics.map
      Entry.noted).filterMap Entry.problem? =
        (Block.ofLine numbered.2 p.machine.motionMode numbered.1).diagnostics := by
    rw [List.filterMap_map]
    exact List.filterMap_some
  have hkind := Block.diagnostics_kind numbered.2 p.machine.motionMode numbered.1
  have hcommands := p.commands_kind setup numbered
  rw [line_snd, List.filterMap_append, htext, List.pairwise_append]
  refine ⟨List.pairwise_of_forall_mem_list ?_, List.pairwise_of_forall_mem_list ?_, ?_⟩
  · intro a ha b hb hs
    rcases hkind a ha with hk | hk <;> rw [hk] at hs <;> cases hs
  · exact fun a ha b hb _ => hcommands b hb
  · exact fun a ha b hb _ => hcommands b hb

/-- Problems of lines come in order. -/
theorem Timeline.entriesFrom_ordered (setup : Setup) (p : Progress) (first : Nat) (lines : List String) :
    ((entriesFrom setup p first lines).2.toList.filterMap Entry.problem?).Pairwise Diagnostic.MayPrecede := by
  induction lines generalizing p first with
  | nil => exact .nil
  | cons text lines ih =>
    have hline : ∀ d ∈ (p.line setup (text, first)).2.filterMap Entry.problem?, d.line = some first := by
      intro d hd
      obtain ⟨e, he, hd⟩ := List.mem_filterMap.mp hd
      rw [← Entry.line?_of_problem? hd]
      exact p.line_of_mem setup (text, first) e he
    rw [entriesFrom_cons, List.filterMap_append, List.pairwise_append]
    refine ⟨?_, ih _ _, ?_⟩
    · have hkinds := p.line_ordered setup (text, first)
      refine hkinds.imp_of_mem fun {a b} ha hb hab n k hn hk => .inr ⟨?_, hab⟩
      rw [hline a ha] at hn
      rw [hline b hb] at hk
      exact Option.some.inj (hn.symm.trans hk)
    · intro a ha b hb n k hn hk
      obtain ⟨e, he, hb⟩ := List.mem_filterMap.mp hb
      obtain ⟨l, hl, hle, -⟩ := entriesFrom_within setup _ _ lines e he
      rw [hline a ha, Option.some.injEq] at hn
      rw [← Entry.line?_of_problem? hb, hl, Option.some.injEq] at hk
      omega

/-! ## Whole programs -/

/-- Whether a problem is a warning of the machine. -/
def Diagnostic.isMachineWarning (d : Diagnostic) : Bool :=
  d.cause.kind = .simulation && d.cause.severity = .warning

/-- The only warning of the machine is the note on a motion after the program's end. -/
theorem Diagnostic.notesEnd_noted (d : Diagnostic) : (Entry.noted d).notesEnd = d.isMachineWarning := by
  obtain ⟨line, cause⟩ := d
  cases cause with
  | block cause => cases cause <;> rfl
  | job cause => cases cause <;> rfl
  | _ => rfl

/-- Some of the problems of a course, found among its entries. -/
theorem filter_problems {keep : Entry → Bool} {P : Diagnostic → Bool} (h : ∀ d, keep (.noted d) = P d)
    (entries : List Entry) :
    (entries.filterMap Entry.problem?).filter P = (entries.filter keep).filterMap Entry.problem? := by
  rw [List.filter_filterMap, List.filterMap_filter]
  congr 1
  funext e
  cases e with
  | moved line motion => cases keep (.moved line motion) <;> rfl
  | noted d =>
    rw [h]
    cases hd : P d <;> simp [Entry.problem?, hd]

theorem filter_motions (entries : List Entry) :
    (entries.filter Entry.isReport).filterMap Entry.motion? = entries.filterMap Entry.motion? := by
  rw [List.filterMap_filter]
  congr 1
  funext e
  cases e with
  | moved => rfl
  | noted problem => cases Entry.isReport (.noted problem) <;> rfl

namespace Timeline

theorem movesOf_moved (mint : Nat → MoveId) (entries : Array Entry) :
    (movesOf mint entries).map (fun m => (m.line, m.motion)) = entries.toList.filterMap Entry.motion? := by
  apply List.ext_getElem?
  intro i
  simp only [movesOf, List.getElem?_map, List.getElem?_mapIdx, Option.map_map, Function.comp_def,
    Option.map_id']

/-- A timeline that accounts for every command of a program. -/
structure Accounted (setup : Setup) (program : Program) (t : Timeline) (tried : List Attempt) : Prop where
  /-- The commands of the program in the order in which they were tried. -/
  course : Course setup (.ofSetup setup) 0 program.lines tried t.final
  /-- A motion is made or refused, and not both. -/
  motion : ∀ a ∈ tried, a.command.isMotion = true → a.move?.isSome = !a.refusal?.isSome
  /-- No other command moves, and only axis offsets are refused, which changes nothing. -/
  other : ∀ a ∈ tried, a.command.isMotion = false → a.move? = none ∧ (a.refusal?.isSome = true →
    (∃ words, a.command.action = .setAxisOffset words) ∧ a.after = a.before)
  moves : t.moves.map (fun m => (m.line, m.motion)) = tried.filterMap Attempt.move?
  refusals : t.diagnostics.filter Diagnostic.isRefusal = tried.filterMap Attempt.refusal?
  within : ∀ d ∈ t.diagnostics, ∃ n < program.lineCount, d.line = some n
  ordered : t.diagnostics.Pairwise Diagnostic.MayPrecede
  /-- The only warning is on the first motion after a command that ends the program. -/
  warnings : t.diagnostics.filter Diagnostic.isMachineWarning =
    ((tried.dropWhile fun a => !a.command.action.endsProgram).find? fun a => a.command.isMotion).toList.map
      fun a => .onLine a.command.line .motionAfterEnd
  /-- That motion stands on a later line. -/
  later : tried.Pairwise fun a b => a.command.action.endsProgram = true → b.command.isMotion = true →
    a.command.line < b.command.line

/-- **Every command is accounted for.** -/
theorem run_accounted (setup : Setup) (mint : Nat → MoveId) (program : Program) :
    ∃ t tried, run setup mint (fun _ => false) program = .ok t ∧ t.Accounted setup program tried := by
  obtain ⟨tried, hcourse, hs⟩ := entriesFrom_attempts setup { machine := .ofSetup setup } 0 program.lines
  have hwithin := entriesFrom_within setup { machine := .ofSetup setup } 0 program.lines
  have hordered := entriesFrom_ordered setup { machine := .ofSetup setup } 0 program.lines
  refine ⟨_, tried, run_unset setup mint program, ?_⟩
  rw [ofLines_eq_resume, resume]
  generalize entriesFrom setup { machine := .ofSetup setup } 0 program.lines = done
    at hcourse hs hwithin hordered ⊢
  exact
    { course := hcourse
      motion := fun a ha => (hs.linked.lawful a ha).isSome_of_isMotion
      other := fun a ha => (hs.linked.lawful a ha).of_not_isMotion
      moves := by
        rw [movesOf_moved, ← filter_motions, hs.reports, List.filterMap_filterMap]
        rfl
      refusals := by
        rw [filter_problems Entry.isReport_noted, hs.reports, List.filterMap_filterMap]
        rfl
      within := by
        intro d hd
        obtain ⟨e, he, hd⟩ := List.mem_filterMap.mp hd
        obtain ⟨n, hn, -, hlt⟩ := hwithin e he
        rw [Entry.line?_of_problem? hd] at hn
        exact ⟨n, by rwa [Nat.zero_add] at hlt, hn⟩
      ordered := hordered
      warnings := by
        rw [filter_problems Diagnostic.notesEnd_noted, hs.notes, firstLate?, hs.linked.find?_isLate rfl,
          List.filterMap_map]
        exact congrFun List.filterMap_eq_map _
      later := hcourse.endsProgram_before }

end Timeline

end Toolpath
