import Toolpath.Proofs.Block.Parts
import Toolpath.Proofs.Timeline.Entries

/-!
# Courses of joined texts

The course of a text does not depend on what follows it, and what follows goes on from where the text
ends, as if it stood alone on lines of its own.

* `Program.lines_append`: the lines of two texts that are joined by a line feed.
* `entriesFrom_append`, `entriesFrom_renumber`: a course over lines is cut anywhere, and its second
  part may be numbered from zero.
* `Timeline.progress`: all that the rest of a course depends on shows in the course so far
  (`entriesFrom_progress`).
* `run_append`: the course of joined texts.
-/

namespace Toolpath

open Timeline

/-- A line feed ends the lines of the text before it. -/
theorem Program.lines_append (name first second s t : String) :
    (Program.mk name (s ++ "\n" ++ t)).lines =
      (Program.mk first s).lines ++ (Program.mk second t).lines := by
  have ht : (s ++ "\n" ++ t).toList = s.toList ++ '\n' :: t.toList := by
    simp
  simp only [Program.lines, ht, Text.splitOn_append_mark, List.map_append]

/-! ## Cutting a course -/

namespace Timeline

theorem entriesFrom_append (setup : Setup) (p : Progress) (first : Nat) (xs ys : List String) :
    entriesFrom setup p first (xs ++ ys) =
      ((entriesFrom setup (entriesFrom setup p first xs).1 (first + xs.length) ys).1,
        (entriesFrom setup p first xs).2 ++
          (entriesFrom setup (entriesFrom setup p first xs).1 (first + xs.length) ys).2) := by
  unfold entriesFrom
  rw [List.zipIdx_append, emitAll_append]

/-- Lines that are numbered from `k` bring forth what they do when numbered from zero, `k` lines
further down. -/
theorem entriesFrom_renumber (setup : Setup) (p : Progress) (k : Nat) (lines : List String) :
    entriesFrom setup p k lines =
      ((entriesFrom setup p 0 lines).1, (entriesFrom setup p 0 lines).2.map (Entry.lower k)) := by
  have hz : lines.zipIdx k = lines.zipIdx.map fun x => (x.1, k + x.2) := List.zipIdx_eq_map_add
  unfold entriesFrom
  rw [hz, emitAll_map (Entry.lower k) _ fun q x => Progress.line_renumber setup q k x]

/-- The second part of a course goes on from where the first one ends. -/
theorem entriesFrom_join (setup : Setup) {p q : Progress} {xs : List String}
    (hq : (entriesFrom setup p 0 xs).1 = q) (ys : List String) :
    entriesFrom setup p 0 (xs ++ ys) =
      ((entriesFrom setup q 0 ys).1,
        (entriesFrom setup p 0 xs).2 ++ (entriesFrom setup q 0 ys).2.map (Entry.lower xs.length)) := by
  rw [entriesFrom_append, Nat.zero_add, hq, entriesFrom_renumber setup q xs.length ys]

end Timeline

/-! ## The warning after the program's end -/

/-- Whether an entry notes a motion after the program's end. -/
def Entry.notesEnd (e : Entry) : Bool := e.problem?.any fun d => d.cause = .motionAfterEnd

theorem any_problems (entries : List Entry) :
    ((entries.filterMap Entry.problem?).any fun d => d.cause = .motionAfterEnd) =
      entries.any Entry.notesEnd := by
  rw [List.any_filterMap]
  congr 1

theorem Draft.leftovers_kind (d : Draft) : ∀ c ∈ d.leftovers, c.kind = .parse := by
  intro c hc
  rcases mem_leftovers hc with rfl | rfl | rfl | rfl <;> rfl

/-- The problems of a text are lexical or those of its words. -/
theorem Block.diagnostics_kind (line : Nat) (mode : MotionKind) (text : String) :
    ∀ d ∈ (Block.ofLine line mode text).diagnostics,
      d.cause.kind = .lex ∨ d.cause.kind = .parse := by
  intro d hd
  obtain ⟨cause, hc, rfl⟩ := List.mem_map.mp hd
  rcases List.mem_append.mp hc with hc | hc
  · obtain ⟨refusal, -, rfl⟩ := List.mem_map.mp hc
    cases refusal with
    | lex cause => exact .inl rfl
    | _ => exact .inr rfl
  · exact .inr (Draft.leftovers_kind _ cause hc)

theorem Block.diagnostics_notesEnd (line : Nat) (mode : MotionKind) (text : String) :
    ((Block.ofLine line mode text).diagnostics.map Entry.noted).any Entry.notesEnd = false := by
  rw [List.any_eq_false]
  intro e he hn
  obtain ⟨d, hd, rfl⟩ := List.mem_map.mp he
  have hk := Block.diagnostics_kind line mode text d hd
  have hm : d.cause = .motionAfterEnd := of_decide_eq_true hn
  rw [hm] at hk
  rcases hk with hk | hk <;> cases hk

theorem LineProgress.command_warned (setup : Setup) (line : Nat) (s : LineProgress) (action : Action) :
    (s.command setup line action).1.progress.warned =
      (s.progress.warned || (s.command setup line action).2.any Entry.notesEnd) := by
  have hw : (s.warnings line action).any Entry.notesEnd = s.firstAfterEnd action := by
    unfold LineProgress.warnings
    cases s.firstAfterEnd action <;> rfl
  have hm : ∀ motion : Option Motion,
      (motion.toList.map (Entry.moved line)).any Entry.notesEnd = false := by
    intro motion
    cases motion <;> rfl
  cases h : s.progress.machine.apply setup action with
  | ok done => rw [command_of_ok _ h, List.any_append, hw, hm, Bool.or_false]
  | error cause =>
    have hn : [Entry.noted (.onLine line (.motion cause))].any Entry.notesEnd = false := rfl
    rw [command_of_error _ h, List.any_append, hw, hn, Bool.or_false]

/-- A warning follows from another state exactly as it was noted in between. -/
theorem warned_append {a b c : Bool} {xs ys : List Entry} (hx : b = (a || xs.any Entry.notesEnd))
    (hy : c = (b || ys.any Entry.notesEnd)) : c = (a || (xs ++ ys).any Entry.notesEnd) := by
  rw [hy, hx, List.any_append, Bool.or_assoc]

theorem Progress.line_warned (setup : Setup) (p : Progress) (numbered : String × Nat) :
    (p.line setup numbered).1.warned =
      (p.warned || (p.line setup numbered).2.any Entry.notesEnd) := by
  have hc : (p.commands setup numbered).1.progress.warned =
      (p.warned || (p.commands setup numbered).2.toList.any Entry.notesEnd) := by
    unfold Progress.commands
    exact emitAll_rel
      (R := fun (s : LineProgress) (out : List Entry) t =>
        t.progress.warned = (s.progress.warned || out.any Entry.notesEnd))
      (fun s => (Bool.or_false _).symm) (fun s xs t ys u => warned_append) _ _
      fun s action _ => s.command_warned setup numbered.2 action
  rw [line_fst, line_snd, List.any_append, Block.diagnostics_notesEnd, Bool.false_or, hc]

/-- A course remembers exactly whether it noted a motion after the program's end. -/
theorem Timeline.entriesFrom_warned (setup : Setup) (p : Progress) (first : Nat) (lines : List String) :
    (entriesFrom setup p first lines).1.warned =
      (p.warned || (entriesFrom setup p first lines).2.toList.any Entry.notesEnd) := by
  unfold entriesFrom
  exact emitAll_rel
    (R := fun (q : Progress) (out : List Entry) r => r.warned = (q.warned || out.any Entry.notesEnd))
    (fun q => (Bool.or_false _).symm) (fun q xs r ys u => warned_append) _ _
    fun q numbered _ => q.line_warned setup numbered

/-! ## Joined courses -/

/-- All of a move but its identifier. -/
def Move.unnamed (m : Move) : Nat × Nat × Motion := (m.index, m.line, m.motion)

/-- A move further down by some lines and further on by some places. -/
def Move.shift (lines places : Nat) (m : Move) : Move :=
  { m with index := places + m.index, line := lines + m.line }

namespace Timeline

/-- The course of lines from some progress on, with lines and moves counted from zero. -/
def resume (setup : Setup) (mint : Nat → MoveId) (p : Progress) (lines : List String) : Timeline where
  moves := movesOf mint (entriesFrom setup p 0 lines).2
  diagnostics := (entriesFrom setup p 0 lines).2.toList.filterMap Entry.problem?
  final := (entriesFrom setup p 0 lines).1.machine

/-- Where a course has come to. -/
def progress (t : Timeline) : Progress where
  machine := t.final
  warned := t.diagnostics.any fun d => d.cause = .motionAfterEnd

theorem ofLines_eq_resume (setup : Setup) (mint : Nat → MoveId) (lines : List String) :
    ofLines setup mint lines = resume setup mint { machine := .ofSetup setup } lines := by
  simp only [ofLines, resume]

/-- All that the rest of a course depends on shows in the course so far. -/
theorem entriesFrom_progress (setup : Setup) (mint : Nat → MoveId) (lines : List String) :
    (entriesFrom setup { machine := .ofSetup setup } 0 lines).1 =
      (ofLines setup mint lines).progress := by
  have hw := entriesFrom_warned setup { machine := .ofSetup setup } 0 lines
  rw [Bool.false_or] at hw
  have hn : (ofLines setup mint lines).progress.warned =
      (entriesFrom setup { machine := .ofSetup setup } 0 lines).2.toList.any Entry.notesEnd := by
    rw [ofLines_eq_resume, progress, resume, any_problems]
  have hm : (ofLines setup mint lines).progress.machine =
      (entriesFrom setup { machine := .ofSetup setup } 0 lines).1.machine := by
    rw [ofLines_eq_resume, progress, resume]
  rw [← hn] at hw
  generalize (ofLines setup mint lines).progress = reached at hw hm
  cases reached
  simp only at hw hm
  subst hw hm
  rfl

/-- Up to identifiers, moves are numbered motions. -/
theorem movesOf_unnamed (mint : Nat → MoveId) (entries : Array Entry) :
    (movesOf mint entries).map Move.unnamed =
      (entries.toList.filterMap Entry.motion?).mapIdx fun index x => (index, x.1, x.2) := by
  apply List.ext_getElem?
  intro i
  simp only [movesOf, List.getElem?_map, List.getElem?_mapIdx, Option.map_map]
  rfl

theorem moved_lower (k : Nat) (entries : Array Entry) :
    (entries.map (Entry.lower k)).toList.filterMap Entry.motion? =
      (entries.toList.filterMap Entry.motion?).map fun x => (k + x.1, x.2) := by
  rw [Array.toList_map, List.filterMap_map, List.map_filterMap]
  congr 1
  funext e
  cases e <;> rfl

/-- The moves of two courses in a row, whatever identifiers they get. -/
theorem movesOf_append_lower (mint first second : Nat → MoveId) (k : Nat) (xs ys : Array Entry) :
    (movesOf mint (xs ++ ys.map (Entry.lower k))).map Move.unnamed =
      (movesOf first xs).map Move.unnamed ++
        ((movesOf second ys).map (Move.shift k (movesOf first xs).length)).map Move.unnamed := by
  have hl : (movesOf first xs).length = (xs.toList.filterMap Entry.motion?).length := by
    rw [movesOf, List.length_mapIdx]
  have hs : ((movesOf second ys).map (Move.shift k (movesOf first xs).length)).map Move.unnamed =
      ((movesOf second ys).map Move.unnamed).map
        fun x => ((movesOf first xs).length + x.1, k + x.2.1, x.2.2) := by
    rw [List.map_map, List.map_map]
    rfl
  rw [hs, movesOf_unnamed, movesOf_unnamed, movesOf_unnamed, Array.toList_append,
    List.filterMap_append, moved_lower, List.mapIdx_append, hl]
  congr 1
  apply List.ext_getElem?
  intro i
  simp only [List.getElem?_mapIdx, List.getElem?_map, Option.map_map]
  congr 1
  funext x
  simp only [Function.comp_apply, Nat.add_comm]

/-- The problems of two courses in a row. -/
theorem problems_append_lower (k : Nat) (xs ys : Array Entry) :
    (xs ++ ys.map (Entry.lower k)).toList.filterMap Entry.problem? =
      xs.toList.filterMap Entry.problem? ++
        (ys.toList.filterMap Entry.problem?).map (Diagnostic.lower k) := by
  rw [Array.toList_append, List.filterMap_append, Array.toList_map, List.filterMap_map,
    List.map_filterMap]
  congr 2
  funext e
  cases e <;> rfl

/-- **Courses of joined texts.** The course of a text followed by another one is the course of the
text, followed by what the other one brings forth from where the text ends. Nothing that follows a
text changes any of its moves or problems. -/
theorem run_append (setup : Setup) (mint first second : Nat → MoveId) (name firstName t₁ t₂ : String) :
    ∃ whole part rest : Timeline,
      run setup mint (fun _ => false) ⟨name, t₁ ++ "\n" ++ t₂⟩ = .ok whole ∧
      run setup first (fun _ => false) ⟨firstName, t₁⟩ = .ok part ∧
      (entriesFrom setup { machine := .ofSetup setup } 0 (Program.mk firstName t₁).lines).1 =
        part.progress ∧
      resume setup second part.progress (Program.mk name t₂).lines = rest ∧
      whole.moves.map Move.unnamed = part.moves.map Move.unnamed ++
        (rest.moves.map (Move.shift (Program.mk firstName t₁).lineCount part.moves.length)).map
          Move.unnamed ∧
      whole.diagnostics = part.diagnostics ++
        rest.diagnostics.map (Diagnostic.lower (Program.mk firstName t₁).lineCount) ∧
      whole.final = rest.final := by
  have hp := entriesFrom_progress setup first (Program.mk firstName t₁).lines
  have he := entriesFrom_join setup hp (Program.mk name t₂).lines
  refine ⟨_, _, _, run_unset setup mint _, run_unset setup first _, hp, rfl, ?_⟩
  rw [Program.lines_append name firstName name t₁ t₂, ofLines_eq_resume setup mint, resume, he]
  exact ⟨movesOf_append_lower mint first second _ _ _, problems_append_lower _ _ _, rfl⟩

end Timeline

end Toolpath
