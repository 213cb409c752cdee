import Toolpath.Proofs.Block.Grouping
import Toolpath.Proofs.Timeline.Insertion

/-!
# Codes that lost their words

A motion code takes effect even if it has no words. So a code whose words are all refused before a
motion is made of them acts as the code alone: its motion mode stays in force, although a motion that
the machine refuses would have taken it back (`Progress.line_of_futile`).

* `GroupKind.bars`: axis and arc words that a group refuses whatever it holds.
* `Block.ofTokens_loneCode`: the block of such a line.
* `Progress.line_of_loneCode`: what the line does.
* `Timeline.run_insert_loneCode`: such a line put into a program. It disturbs nothing if its mode is in
  force already; `Timeline.loneCode_disturbs` is a program that is disturbed.
-/

namespace Toolpath

/-! ## The line -/

/-- Whether an item is an axis or arc word that a group refuses whatever it holds: it is malformed, or
it is an arc word in a group that is no arc. -/
def GroupKind.bars (kind : GroupKind) : Token → Bool
  | .word letter _ _ _ => (Address.ofLetter? letter).any fun address => !kind.allows address
  | .error (.missingValue _ letter) => (Address.ofLetter? letter).isSome
  | .error (.invalidNumber _ letter _) => (Address.ofLetter? letter).isSome
  | _ => false

namespace Draft

theorem push_of_bars {d : Draft} {s : Segment} {token : Token} (hd : d.currentGroup = s.group)
    (h : s.kind.bars token = true) : ∃ cause, d.push token = .error cause := by
  cases token with
  | word letter value raw column =>
    obtain ⟨address, ha, hn⟩ := (Option.any_eq_true _ _).mp h
    have hw : GroupWord.ofToken? (.word letter value raw column) = some { address, value } := by
      simp only [GroupWord.ofToken?, ha, Option.map_some]
    have hr : s.kind.refusal? s.words { address, value } =
        some (.unexpectedWord address.letter "arc words need G2 or G3") := if_pos hn
    rw [d.push_of_word hw, hd, s.pushAt_group, hr]
    exact ⟨_, rfl⟩
  | error cause => exact ⟨.lex cause, rfl⟩
  | _ => cases h

/-- Items that are all refused leave a draft as it was. -/
theorem pushAll_of_forall_error {d : Draft} {items : List Token}
    (h : ∀ token ∈ items, ∃ cause, d.push token = .error cause) :
    (d.pushAll items).1 = d ∧ (d.pushAll items).2.length = items.length := by
  induction items with
  | nil => exact ⟨rfl, rfl⟩
  | cons token rest ih =>
    obtain ⟨cause, hc⟩ := h token List.mem_cons_self
    obtain ⟨hd, hl⟩ := ih fun other ho => h other (List.mem_cons_of_mem token ho)
    rw [pushAll_of_error hc]
    exact ⟨hd, congrArg (· + 1) hl⟩

/-- The words of a motion code that lost all of them. -/
theorem pushAll_of_bars (mode kind : MotionKind) {code : Token} {words : List Token}
    (hc : GroupKind.ofToken? code = some (.motion kind))
    (hw : ∀ token ∈ words, (GroupKind.motion kind).bars token = true) :
    (pushAll { motionMode := mode } (code :: words)).1 =
        startGroup { motionMode := mode } (.motion kind) ∧
      (pushAll { motionMode := mode } (code :: words)).2.length = words.length := by
  rw [pushAll_of_ok (push_of_opens _ hc)]
  refine pushAll_of_forall_error fun token ht => ?_
  exact push_of_bars (s := { kind := .motion kind }) (Segment.group_nil _ _).symm (hw token ht)

end Draft

/-- The block of a motion code that lost all of its words. -/
theorem Block.ofTokens_loneCode (line : Nat) (mode kind : MotionKind) {code : Token} {words : List Token}
    (hc : GroupKind.ofToken? code = some (.motion kind))
    (hw : ∀ token ∈ words, (GroupKind.motion kind).bars token = true) :
    (ofTokens line mode (code :: words)).commands = [⟨line, .setMotionMode kind⟩] ∧
      (ofTokens line mode (code :: words)).diagnostics.length = words.length ∧
      ∀ d ∈ (ofTokens line mode (code :: words)).diagnostics, d.isError = true := by
  obtain ⟨hd, hl⟩ := Draft.pushAll_of_bars mode kind hc hw
  have hgroups : (Draft.startGroup { motionMode := mode } (.motion kind)).groups =
      [{ kind := .motion kind }] := rfl
  have hactions : (Draft.startGroup { motionMode := mode } (.motion kind)).actions =
      [.setMotionMode kind] := by
    have hset : (Draft.startGroup { motionMode := mode } (.motion kind)).settings = [] := by
      simp [Draft.settings, Draft.startGroup, Draft.dwellActions]
    rw [Draft.actions_eq, hset, hgroups]
    rfl
  have hleft : (Draft.startGroup { motionMode := mode } (.motion kind)).leftovers = [] := by
    cases kind <;> rfl
  simp only [ofTokens, hd, hactions, hleft, List.append_nil, List.length_map, hl]
  refine ⟨rfl, trivial, ?_⟩
  intro d hm
  obtain ⟨cause, hcause, rfl⟩ := List.mem_map.mp hm
  obtain ⟨refusal, -, rfl⟩ := List.mem_map.mp hcause
  rfl

/-- **A motion code that lost its words** makes no motion, and its mode stays in force. -/
theorem Progress.line_of_loneCode (setup : Setup) (p : Progress) (line : Nat) {kind : MotionKind}
    {text : String} {code : Token} {words : List Token} (ht : tokens text = code :: words)
    (hc : GroupKind.ofToken? code = some (.motion kind))
    (hw : ∀ token ∈ words, (GroupKind.motion kind).bars token = true) :
    (p.line setup (text, line)).1 = { p with machine := { p.machine with motionMode := kind } } ∧
      (p.line setup (text, line)).2 =
        (Block.ofLine line p.machine.motionMode text).diagnostics.map .noted := by
  obtain ⟨hblock, -⟩ := Block.ofTokens_loneCode line p.machine.motionMode kind hc hw
  rw [← ht, ← Block.ofLine] at hblock
  have hcommands : p.commands setup (text, line) =
      emitAll (LineProgress.command setup line) { progress := p } [.setMotionMode kind] := by
    rw [commands, hblock]
    rfl
  have happly : p.machine.apply setup (.setMotionMode kind) =
      .ok ({ p.machine with motionMode := kind }, none) := rfl
  rw [line_fst, line_snd, hcommands, emitAll_cons, LineProgress.command_of_ok line happly]
  constructor
  · simp [LineProgress.firstAfterEnd, Action.isMotion]
  · simp [LineProgress.warnings, LineProgress.firstAfterEnd, Action.isMotion]

/-! ## Whole programs -/

namespace Timeline

/-- A course has no entries on a line that is none of its own. -/
theorem entriesFrom_filter_other (setup : Setup) (p : Progress) {first k : Nat} {lines : List String}
    (h : k < first ∨ first + lines.length ≤ k) :
    (entriesFrom setup p first lines).2.toList.filter (fun e => e.line? = some k) = [] := by
  rw [List.filter_eq_nil_iff]
  intro e he
  obtain ⟨n, hn, hle, hlt⟩ := entriesFrom_within setup p first lines e he
  simp only [hn, Option.some.injEq, decide_eq_true_eq]
  omega

/-- The entries of a line are what it brings forth where the lines above it end. -/
theorem entriesFrom_filter_line (setup : Setup) (p : Progress) (xs : List String) (text : String)
    (ys : List String) :
    (entriesFrom setup p 0 (xs ++ text :: ys)).2.toList.filter (fun e => e.line? = some xs.length) =
      ((entriesFrom setup p 0 xs).1.line setup (text, xs.length)).2 := by
  rw [entriesFrom_append, Nat.zero_add, Array.toList_append, entriesFrom_cons, List.filter_append,
    List.filter_append, entriesFrom_filter_other setup _ (.inr (by omega)),
    entriesFrom_filter_other setup _ (.inl (by omega)), List.nil_append, List.append_nil,
    List.filter_eq_self]
  intro e he
  exact decide_eq_true (Progress.line_of_mem setup _ (text, xs.length) e he)

/-- Courses without and with a line at `k` that is a motion code which lost its words, `n` in number. -/
structure LeavesMode (setup : Setup) (kind : MotionKind) (k n : Nat) (lines lines' : List String)
    (t t' : Timeline) : Prop where
  /-- The line makes no motion. -/
  still : ∀ m ∈ t'.moves, m.line ≠ k
  /-- It has one error for each word. -/
  errors : (t'.diagnostics.filter fun d => d.line = some k).length = n ∧
    ∀ d ∈ t'.diagnostics, d.line = some k → d.isError = true
  /-- The line below finds the machine that the line itself found, but for the motion mode. -/
  machine : machineAt setup lines' (k + 1) = { machineAt setup lines k with motionMode := kind }
  /-- If the mode was in force already, nothing is disturbed. -/
  undisturbed : (machineAt setup lines k).motionMode = kind → Undisturbed k t t'

/-- The machine below a line is the one that the line leaves. -/
theorem machineAt_succ (setup : Setup) (xs : List String) (text : String) (ys : List String) :
    machineAt setup (xs ++ text :: ys) (xs.length + 1) =
      ((entriesFrom setup { machine := .ofSetup setup } 0 xs).1.line setup
        (text, xs.length)).1.machine := by
  have htake : (xs ++ text :: ys).take (xs.length + 1) = xs ++ [text] := by
    rw [List.take_length_add_append, List.take_succ_cons, List.take_zero]
  have hnil : ∀ q, entriesFrom setup q (xs.length + 1) [] = (q, #[]) := fun _ => rfl
  rw [machineAt, htake, entriesFrom_append, Nat.zero_add, entriesFrom_cons_fst, hnil]

/-- A move is an entry with an identifier. -/
theorem moved_mem_of_mem_movesOf {mint : Nat → MoveId} {entries : Array Entry} {m : Move}
    (h : m ∈ movesOf mint entries) : .moved m.line m.motion ∈ entries.toList := by
  obtain ⟨i, hi, rfl⟩ := List.mem_mapIdx.mp h
  obtain ⟨e, he, hm⟩ := List.mem_filterMap.mp (List.getElem_mem hi)
  cases e with
  | moved line motion =>
    have := Option.some.inj hm
    rw [← this]
    exact he
  | noted problem => cases hm

theorem ofLines_insert_loneCode (setup : Setup) (mint mint' : Nat → MoveId) (xs ys : List String)
    {kind : MotionKind} {text : String} {code : Token} {words : List Token}
    (ht : tokens text = code :: words) (hc : GroupKind.ofToken? code = some (.motion kind))
    (hw : ∀ token ∈ words, (GroupKind.motion kind).bars token = true) :
    LeavesMode setup kind xs.length words.length (xs ++ ys) (xs ++ text :: ys)
      (ofLines setup mint (xs ++ ys)) (ofLines setup mint' (xs ++ text :: ys)) := by
  generalize hq : (entriesFrom setup { machine := .ofSetup setup } 0 xs).1 = q
  obtain ⟨hprogress, hentries⟩ := q.line_of_loneCode setup xs.length ht hc hw
  obtain ⟨-, hlength, herror⟩ := Block.ofTokens_loneCode xs.length q.machine.motionMode kind hc hw
  rw [← ht, ← Block.ofLine] at hlength herror
  have hmachine : machineAt setup (xs ++ ys) xs.length = q.machine := by
    rw [machineAt, List.take_left, hq]
  have hmotions : (q.line setup (text, xs.length)).2.filterMap Entry.motion? = [] := by
    rw [hentries, List.filterMap_map]
    exact List.filterMap_eq_nil_iff.mpr fun _ _ => rfl
  have hline := entriesFrom_filter_line setup { machine := .ofSetup setup } xs text ys
  rw [hq] at hline
  have hproblems : ((ofLines setup mint' (xs ++ text :: ys)).diagnostics.filter
      fun d => d.line = some xs.length) =
        (Block.ofLine xs.length q.machine.motionMode text).diagnostics := by
    rw [ofLines_eq_resume, resume, filter_problems_line (· = some xs.length), hline, hentries,
      List.filterMap_map]
    exact List.filterMap_some
  exact
    { still := by
        intro m hm hk
        have he : .moved m.line m.motion ∈ (q.line setup (text, xs.length)).2 := by
          rw [← hline]
          exact List.mem_filter.mpr ⟨moved_mem_of_mem_movesOf hm, decide_eq_true (congrArg some hk)⟩
        cases List.filterMap_eq_nil_iff.mp hmotions _ he
      errors := by
        constructor
        · rw [hproblems, hlength]
        · intro d hd hk
          exact herror d (hproblems ▸ List.mem_filter.mpr ⟨hd, decide_eq_true hk⟩)
      machine := by
        rw [machineAt_succ, hq, hmachine, hprogress]
      undisturbed := by
        intro hmode
        rw [hmachine] at hmode
        refine ofLines_insert hq ?_ hmotions mint mint' ys
        rw [hprogress, ← hmode] }

/-- **A motion code that lost its words may be put in anywhere**, but its motion mode stays in force. -/
theorem run_insert_loneCode (setup : Setup) (mint mint' : Nat → MoveId) (program inserted : Program)
    (k : Nat) (text : String) (kind : MotionKind) (code : Token) (words : List Token)
    (hk : k ≤ program.lineCount) (hi : inserted.lines = program.lines.insertIdx k text)
    (ht : tokens text = code :: words) (hc : GroupKind.ofToken? code = some (.motion kind))
    (hw : ∀ token ∈ words, (GroupKind.motion kind).bars token = true) :
    ∃ t t' : Timeline,
      run setup mint (fun _ => false) program = .ok t ∧
      run setup mint' (fun _ => false) inserted = .ok t' ∧
      LeavesMode setup kind k words.length program.lines inserted.lines t t' := by
  refine ⟨_, _, run_unset setup mint program, run_unset setup mint' inserted, ?_⟩
  have hl : (program.lines.take k).length = k := List.length_take_of_le hk
  have h := ofLines_insert_loneCode setup mint mint' (program.lines.take k) (program.lines.drop k) ht hc hw
  rwa [hl, List.take_append_drop, ← insertIdx_eq_append text hk, ← hi] at h

/-- A malformed word of an arc between two lines that go straight. -/
theorem run_insert_malformed_word :
    let program : Program := ⟨"part.nc", "G1 X1\nX5"⟩
    let inserted : Program := ⟨"part.nc", "G1 X1\nG2 X1.2.3 Y\nX5"⟩
    ∃ t t' : Timeline,
      run {} (MoveId.mint 1) (fun _ => false) program = .ok t ∧
      run {} (MoveId.mint 2) (fun _ => false) inserted = .ok t' ∧
      LeavesMode {} .arcClockwise 1 2 program.lines inserted.lines t t' :=
  run_insert_loneCode {} (MoveId.mint 1) (MoveId.mint 2) ⟨"part.nc", "G1 X1\nX5"⟩
    ⟨"part.nc", "G1 X1\nG2 X1.2.3 Y\nX5"⟩ 1 "G2 X1.2.3 Y" .arcClockwise (.word 'G' 2 "2" 0)
    [.error (.invalidNumber 3 'X' "1.2.3"), .error (.missingValue 10 'Y')]
    (by decide +kernel) (by decide +kernel) (by decide +kernel) (by decide +kernel) (by decide +kernel)

/-- The mode that a lone code leaves behind disturbs the lines below it: the second line no longer goes
straight, and its motion is lost. -/
theorem loneCode_disturbs :
    let t := ofLines {} (MoveId.mint 1) (Program.mk "part.nc" "G1 X1\nX5").lines
    let t' := ofLines {} (MoveId.mint 2) (Program.mk "part.nc" "G1 X1\nG2 X1.2.3\nX5").lines
    t.moves.length = 2 ∧ t'.moves.length = 1 ∧ ¬ Undisturbed 1 t t' := by
  have hlength : (ofLines {} (MoveId.mint 1) (Program.mk "part.nc" "G1 X1\nX5").lines).moves.length = 2 := by
    decide +kernel
  have hlength' : (ofLines {} (MoveId.mint 2)
      (Program.mk "part.nc" "G1 X1\nG2 X1.2.3\nX5").lines).moves.length = 1 := by
    decide +kernel
  refine ⟨hlength, hlength', fun h => ?_⟩
  have hmoves := congrArg List.length h.moves
  rw [List.length_map, List.length_map, List.length_map, hlength, hlength'] at hmoves
  cases hmoves

end Timeline

end Toolpath
