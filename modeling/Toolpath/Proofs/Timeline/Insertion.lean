import Toolpath.Proofs.Timeline.Refusal
import Toolpath.Proofs.Timeline.Warning

/-!
# A line put into a program

What a program brings forth when a line is put in between its lines. The lines below the new one are
numbered one higher. If the new line leaves the machine as it was, the other lines bring forth what
they did before, with one exception: a motion after the program's end is noted once only, so a new line
that notes it takes the note away from a later one.

* `Entry.makeRoom`: an entry after a line was put in.
* `Timeline.entriesFrom_insert`: the entries of a course with the new line.
* `Timeline.Undisturbed`: two courses that differ by a line which changes nothing.
* `Timeline.run_insert_futile`: a line of which all motions are refused changes nothing.
-/

namespace Toolpath

/-! ## Room for a line -/

/-- The number of a line after one was put in at `k`. -/
def roomAt (k n : Nat) : Nat := if n < k then n else n + 1

def Diagnostic.makeRoom (k : Nat) (d : Diagnostic) : Diagnostic := { d with line := d.line.map (roomAt k) }

def Move.makeRoom (k : Nat) (m : Move) : Move := { m with line := roomAt k m.line }

def Entry.makeRoom (k : Nat) : Entry → Entry
  | .moved line motion => .moved (roomAt k line) motion
  | .noted problem => .noted (problem.makeRoom k)

theorem roomAt_of_lt {k n : Nat} (h : n < k) : roomAt k n = n := if_pos h

theorem roomAt_add (k n : Nat) : roomAt k (k + n) = k + 1 + n := by
  rw [roomAt, if_neg (by omega)]
  omega

theorem lt_roomAt_of_le {k n : Nat} (h : k ≤ n) : k < roomAt k n := by
  rw [roomAt, if_neg (by omega)]
  omega

namespace Entry

theorem line?_makeRoom (k : Nat) (e : Entry) : (e.makeRoom k).line? = e.line?.map (roomAt k) := by
  cases e <;> rfl

theorem makeRoom_of_lt {k n : Nat} {e : Entry} (hl : e.line? = some n) (hn : n < k) :
    e.makeRoom k = e := by
  cases e with
  | moved line motion =>
    cases hl
    rw [makeRoom, roomAt_of_lt hn]
  | noted problem =>
    have hp : problem.line = some n := hl
    simp only [makeRoom, Diagnostic.makeRoom, hp, Option.map_some, roomAt_of_lt hn]
    rw [← hp]

theorem makeRoom_lower (k : Nat) (e : Entry) : (e.lower k).makeRoom k = e.lower (k + 1) := by
  cases e with
  | moved line motion => rw [lower, makeRoom, roomAt_add, lower]
  | noted problem =>
    simp only [lower, makeRoom, Diagnostic.lower, Diagnostic.makeRoom, Option.map_map]
    congr 3
    funext n
    exact roomAt_add k n

end Entry

namespace Timeline

/-- Lines that are numbered one higher. -/
theorem entriesFrom_makeRoom (setup : Setup) (p : Progress) (k : Nat) (lines : List String) :
    entriesFrom setup p (k + 1) lines =
      ((entriesFrom setup p k lines).1, (entriesFrom setup p k lines).2.map (Entry.makeRoom k)) := by
  rw [entriesFrom_renumber setup p (k + 1), entriesFrom_renumber setup p k, Array.map_map]
  congr 2
  funext e
  exact (e.makeRoom_lower k).symm

end Timeline

/-! ## Entries of the new line and of the others -/

/-- The problems of entries on some of the lines. -/
theorem filter_problems_line (on : Option Nat → Bool) (entries : List Entry) :
    (entries.filterMap Entry.problem?).filter (fun d => on d.line) =
      (entries.filter fun e => on e.line?).filterMap Entry.problem? := by
  rw [List.filter_filterMap, List.filterMap_filter]
  congr 1
  funext e
  cases e with
  | moved line motion => simp [Entry.problem?]
  | noted problem => cases hl : on problem.line <;> simp [Entry.problem?, Entry.line?, Option.filter, hl]

theorem problems_makeRoom (k : Nat) (entries : List Entry) :
    (entries.map (Entry.makeRoom k)).filterMap Entry.problem? =
      (entries.filterMap Entry.problem?).map (Diagnostic.makeRoom k) := by
  rw [List.filterMap_map, List.map_filterMap]
  congr 1
  funext e
  cases e <;> rfl

/-- Entries above a line, on it and below it. On it are no motions, and if it notes a motion after the
program's end then none was noted above. -/
structure Parted (k : Nat) (above new below : List Entry) : Prop where
  line_above : ∀ e ∈ above, ∃ n, e.line? = some n ∧ n < k
  line_new : ∀ e ∈ new, e.line? = some k
  line_below : ∀ e ∈ below, ∃ n, e.line? = some n ∧ k ≤ n
  still : new.filterMap Entry.motion? = []
  once : new.any Entry.notesEnd = true → above.any Entry.notesEnd = false

namespace Timeline

/-- What is left of the entries of lines if a new line may have taken their note away. -/
def remaining (new entries : List Entry) : List Entry :=
  entries.filter fun e => !(new.any Entry.notesEnd && e.notesEnd)

theorem remaining_append (new xs ys : List Entry) :
    remaining new (xs ++ ys) = remaining new xs ++ remaining new ys :=
  List.filter_append ..

/-- What remains if nothing was taken away. -/
theorem remaining_of_unnoted {new : List Entry} (h : new.any Entry.notesEnd = false)
    (entries : List Entry) : remaining new entries = entries := by
  rw [remaining, h]
  exact List.filter_eq_self.mpr fun _ _ => rfl

/-- What remains if the note was taken away. -/
theorem problems_remaining_of_noted {new : List Entry} (h : new.any Entry.notesEnd = true)
    (entries : List Entry) :
    (remaining new entries).filterMap Entry.problem? =
      (entries.filterMap Entry.problem?).filter fun d => d.cause ≠ .motionAfterEnd := by
  rw [remaining, h, List.filter_filterMap, List.filterMap_filter]
  congr 1
  funext e
  cases e with
  | moved line motion => simp [Entry.problem?]
  | noted problem => simp [Entry.problem?, Entry.notesEnd, Option.filter]

/-- What a program brings forth with a new line. -/
def withLine (k : Nat) (above new below : List Entry) : List Entry :=
  above ++ new ++ remaining new (below.map (Entry.makeRoom k))

end Timeline

open Timeline

namespace Parted

variable {k : Nat} {above new below : List Entry}

/-- Above a new line nothing has to make room. -/
theorem map_makeRoom (h : Parted k above new below) :
    (above ++ below).map (Entry.makeRoom k) = above ++ below.map (Entry.makeRoom k) := by
  have ha : above.map (Entry.makeRoom k) = above.map id := by
    refine List.map_congr_left fun e he => ?_
    obtain ⟨n, hl, hn⟩ := h.line_above e he
    exact Entry.makeRoom_of_lt hl hn
  rw [List.map_append, ha, List.map_id]

/-- The motions are those of the other lines. -/
theorem filterMap_motion? (h : Parted k above new below) :
    (withLine k above new below).filterMap Entry.motion? =
      ((above ++ below).map (Entry.makeRoom k)).filterMap Entry.motion? := by
  have hr : ∀ entries : List Entry, (remaining new entries).filterMap Entry.motion? =
      entries.filterMap Entry.motion? := by
    intro entries
    rw [remaining, List.filterMap_filter]
    congr 1
    funext e
    -- an entry that notes something is no motion
    cases e with
    | moved line motion => simp [Entry.notesEnd, Entry.problem?]
    | noted problem => simp [Entry.motion?]
  rw [withLine, h.map_makeRoom, List.filterMap_append, List.filterMap_append, List.filterMap_append,
    h.still, hr, List.append_nil]

/-- The entries of the other lines are what remains of those without the new line. -/
theorem filter_line? (h : Parted k above new below) :
    (withLine k above new below).filter (fun e => e.line? ≠ some k) =
      remaining new ((above ++ below).map (Entry.makeRoom k)) := by
  have ha : above.filter (fun e => e.line? ≠ some k) = above := by
    rw [List.filter_eq_self]
    intro e he
    obtain ⟨n, hl, hn⟩ := h.line_above e he
    simp only [hl, ne_eq, Option.some.injEq, decide_eq_true_eq]
    omega
  have hn : new.filter (fun e => e.line? ≠ some k) = [] := by
    rw [List.filter_eq_nil_iff]
    intro e he
    simp [h.line_new e he]
  have hb : ∀ e ∈ below.map (Entry.makeRoom k), e.line? ≠ some k := by
    intro e he
    obtain ⟨f, hf, rfl⟩ := List.mem_map.mp he
    obtain ⟨n, hl, hle⟩ := h.line_below f hf
    have := lt_roomAt_of_le hle
    rw [f.line?_makeRoom, hl, Option.map_some, ne_eq, Option.some.injEq]
    omega
  have hr : (remaining new (below.map (Entry.makeRoom k))).filter (fun e => e.line? ≠ some k) =
      remaining new (below.map (Entry.makeRoom k)) := by
    rw [List.filter_eq_self]
    intro e he
    exact decide_eq_true (hb e (List.mem_filter.mp he).1)
  have hk : remaining new above = above := by
    rw [remaining, List.filter_eq_self]
    intro e he
    cases hn : new.any Entry.notesEnd with
    | false => rfl
    | true =>
      have := List.any_eq_false.mp (h.once hn) e he
      simp [this]
  rw [withLine, h.map_makeRoom, remaining_append, hk, List.filter_append, List.filter_append, ha, hn,
    hr, List.append_nil]

/-- The new line notes a motion after the program's end exactly if such a note stands on it. -/
theorem mem_iff (h : Parted k above new below) :
    .onLine k .motionAfterEnd ∈ (withLine k above new below).filterMap Entry.problem? ↔
      new.any Entry.notesEnd = true := by
  constructor
  · intro hd
    obtain ⟨e, he, hp⟩ := List.mem_filterMap.mp hd
    have hl : e.line? = some k := by
      cases e <;> cases hp
      rfl
    have hnew : e ∈ new := by
      rw [withLine, List.append_assoc, List.mem_append, List.mem_append] at he
      rcases he with he | he | he
      · obtain ⟨n, hn, hlt⟩ := h.line_above e he
        have := Option.some.inj (hn.symm.trans hl)
        omega
      · exact he
      · obtain ⟨f, hf, rfl⟩ := List.mem_map.mp (List.mem_filter.mp he).1
        obtain ⟨n, hn, hle⟩ := h.line_below f hf
        rw [f.line?_makeRoom, hn, Option.map_some] at hl
        have := lt_roomAt_of_le hle
        have := Option.some.inj hl
        omega
    refine List.any_eq_true.mpr ⟨e, hnew, ?_⟩
    rw [Entry.notesEnd, hp]
    rfl
  · intro hn
    obtain ⟨e, he, hn⟩ := List.any_eq_true.mp hn
    have hl := h.line_new e he
    cases e with
    | moved line motion => cases hn
    | noted problem =>
      obtain ⟨line, cause⟩ := problem
      have hc : cause = .motionAfterEnd := of_decide_eq_true hn
      have hl : line = some k := hl
      subst hc hl
      refine List.mem_filterMap.mpr ⟨.noted (.onLine k .motionAfterEnd), ?_, rfl⟩
      rw [withLine, List.append_assoc]
      exact List.mem_append_right _ (List.mem_append_left _ he)

/-- The problems of the other lines, if the new one does not note a motion after the program's end. -/
theorem problems_of_unnoted (h : Parted k above new below)
    (hn : .onLine k .motionAfterEnd ∉ (withLine k above new below).filterMap Entry.problem?) :
    ((withLine k above new below).filterMap Entry.problem?).filter (fun d => d.line ≠ some k) =
      ((above ++ below).filterMap Entry.problem?).map (Diagnostic.makeRoom k) := by
  rw [h.mem_iff, Bool.not_eq_true] at hn
  rw [filter_problems_line (· ≠ some k), h.filter_line?, remaining_of_unnoted hn, problems_makeRoom]

/-- The problems of the other lines, if the new one notes a motion after the program's end. -/
theorem problems_of_noted (h : Parted k above new below)
    (hn : .onLine k .motionAfterEnd ∈ (withLine k above new below).filterMap Entry.problem?) :
    ((withLine k above new below).filterMap Entry.problem?).filter (fun d => d.line ≠ some k) =
      (((above ++ below).filterMap Entry.problem?).map (Diagnostic.makeRoom k)).filter
        fun d => d.cause ≠ .motionAfterEnd := by
  rw [h.mem_iff] at hn
  rw [filter_problems_line (· ≠ some k), h.filter_line?, problems_remaining_of_noted hn, problems_makeRoom]

end Parted

/-! ## A line that leaves the machine as it was -/

/-- After such a line only the note on a motion after the program's end may be new. -/
theorem Progress.line_of_still {setup : Setup} {p : Progress} {numbered : String × Nat}
    (h : (p.line setup numbered).1.machine = p.machine) :
    (p.line setup numbered).1 =
      if (p.line setup numbered).2.any Entry.notesEnd then p.warn else p := by
  have hw := p.line_warned setup numbered
  generalize (p.line setup numbered).1 = q at h hw ⊢
  generalize (p.line setup numbered).2.any Entry.notesEnd = noted at hw ⊢
  obtain ⟨machine, warned⟩ := q
  obtain ⟨machine', warned'⟩ := p
  simp only at h hw
  subst h hw
  cases noted <;> simp [warn]

namespace Timeline

theorem entriesFrom_cons_fst (setup : Setup) (p : Progress) (first : Nat) (text : String)
    (lines : List String) :
    (entriesFrom setup p first (text :: lines)).1 =
      (entriesFrom setup (p.line setup (text, first)).1 (first + 1) lines).1 := by
  unfold entriesFrom
  rw [List.zipIdx_cons, emitAll_cons]

theorem entriesFrom_of_still {setup : Setup} {p : Progress} {numbered : String × Nat}
    (h : (p.line setup numbered).1.machine = p.machine) (first : Nat) (lines : List String) :
    (entriesFrom setup (p.line setup numbered).1 first lines).1.machine =
        (entriesFrom setup p first lines).1.machine ∧
      (entriesFrom setup (p.line setup numbered).1 first lines).2.toList =
        remaining (p.line setup numbered).2 (entriesFrom setup p first lines).2.toList := by
  rw [Progress.line_of_still h]
  unfold remaining
  cases (p.line setup numbered).2.any Entry.notesEnd with
  | false => exact ⟨rfl, (List.filter_eq_self.mpr fun _ _ => rfl).symm⟩
  | true =>
    simp only [if_true, entriesFrom_warn, Array.toList_filter, Bool.true_and]
    exact ⟨rfl, rfl⟩

/-- The entries of a course into which a line is put that leaves the machine as it was. -/
theorem entriesFrom_insert {setup : Setup} {p q : Progress} {xs : List String} {text : String}
    (hq : (entriesFrom setup p 0 xs).1 = q)
    (h : (q.line setup (text, xs.length)).1.machine = q.machine) (ys : List String) :
    (entriesFrom setup p 0 (xs ++ text :: ys)).1.machine =
        (entriesFrom setup p 0 (xs ++ ys)).1.machine ∧
      (entriesFrom setup p 0 (xs ++ text :: ys)).2.toList =
        withLine xs.length (entriesFrom setup p 0 xs).2.toList (q.line setup (text, xs.length)).2
          (entriesFrom setup q xs.length ys).2.toList := by
  obtain ⟨hm, he⟩ := entriesFrom_of_still h (xs.length + 1) ys
  rw [entriesFrom_makeRoom setup q] at hm he
  rw [entriesFrom_append, entriesFrom_append, hq, Nat.zero_add]
  constructor
  · rw [entriesFrom_cons_fst, hm]
  · rw [Array.toList_append, entriesFrom_cons, he, Array.toList_map, withLine, List.append_assoc]

/-- The entries of a line without motions, between those of the lines above and below it. -/
theorem entriesFrom_parted {setup : Setup} {p q : Progress} {xs : List String} {text : String}
    (hq : (entriesFrom setup p 0 xs).1 = q)
    (h : (q.line setup (text, xs.length)).2.filterMap Entry.motion? = []) (ys : List String) :
    Parted xs.length (entriesFrom setup p 0 xs).2.toList (q.line setup (text, xs.length)).2
      (entriesFrom setup q xs.length ys).2.toList where
  line_above e he := by
    obtain ⟨n, hn, -, hlt⟩ := entriesFrom_within setup p 0 xs e he
    exact ⟨n, hn, by omega⟩
  line_new := q.line_of_mem setup (text, xs.length)
  line_below e he := by
    obtain ⟨n, hn, hle, -⟩ := entriesFrom_within setup q xs.length ys e he
    exact ⟨n, hn, hle⟩
  still := h
  once hn := by
    -- a note above would have been remembered, and the line would make none
    have habove := entriesFrom_countP setup p 0 xs
    have hnew := q.line_countP setup (text, xs.length)
    have hpos : 0 < (q.line setup (text, xs.length)).2.countP Entry.notesEnd :=
      List.countP_pos_iff.mpr (List.any_eq_true.mp hn)
    have hle := (q.line setup (text, xs.length)).1.warned.toNat_le
    rw [hq] at habove
    have hzero : (entriesFrom setup p 0 xs).2.toList.countP Entry.notesEnd = 0 := by omega
    exact List.any_eq_false.mpr (List.countP_eq_zero.mp hzero)

end Timeline

/-! ## Whole programs -/

namespace Timeline

/-- The machine that a line finds: the one that the lines before it leave. -/
def machineAt (setup : Setup) (lines : List String) (k : Nat) : Machine :=
  (entriesFrom setup { machine := .ofSetup setup } 0 (lines.take k)).1.machine

/-- Courses without and with a line at `k` that disturbs nothing. -/
structure Undisturbed (k : Nat) (t t' : Timeline) : Prop where
  /-- Up to identifiers the moves are the same, those below the new line on lines one further down. -/
  moves : t'.moves.map Move.unnamed = (t.moves.map (Move.makeRoom k)).map Move.unnamed
  final : t'.final = t.final
  /-- The problems of the other lines are the same. -/
  diagnostics : .onLine k .motionAfterEnd ∉ t'.diagnostics →
    t'.diagnostics.filter (fun d => d.line ≠ some k) = t.diagnostics.map (Diagnostic.makeRoom k)
  /-- If the new line notes a motion after the program's end, no other line does. -/
  diagnostics_of_note : .onLine k .motionAfterEnd ∈ t'.diagnostics →
    t'.diagnostics.filter (fun d => d.line ≠ some k) =
      (t.diagnostics.map (Diagnostic.makeRoom k)).filter fun d => d.cause ≠ .motionAfterEnd
  once : t.diagnostics.countP (fun d => d.cause = .motionAfterEnd) ≤ 1
  once_with : t'.diagnostics.countP (fun d => d.cause = .motionAfterEnd) ≤ 1

/-- Moves are numbered motions, so moves of motions that made room have made room. -/
theorem movesOf_makeRoom (k : Nat) (mint mint' : Nat → MoveId) {entries entries' : Array Entry}
    (h : entries'.toList.filterMap Entry.motion? =
      (entries.toList.map (Entry.makeRoom k)).filterMap Entry.motion?) :
    (movesOf mint' entries').map Move.unnamed =
      ((movesOf mint entries).map (Move.makeRoom k)).map Move.unnamed := by
  have hl : (entries.toList.map (Entry.makeRoom k)).filterMap Entry.motion? =
      (entries.toList.filterMap Entry.motion?).map fun x => (roomAt k x.1, x.2) := by
    rw [List.filterMap_map, List.map_filterMap]
    congr 1
    funext e
    cases e <;> rfl
  have hr : ((movesOf mint entries).map (Move.makeRoom k)).map Move.unnamed =
      ((movesOf mint entries).map Move.unnamed).map fun x => (x.1, roomAt k x.2.1, x.2.2) := by
    rw [List.map_map, List.map_map]
    rfl
  rw [hr, movesOf_unnamed, movesOf_unnamed, h, hl]
  apply List.ext_getElem?
  intro i
  simp only [List.getElem?_mapIdx, List.getElem?_map, Option.map_map]
  rfl

theorem countP_problems (entries : List Entry) :
    (entries.filterMap Entry.problem?).countP (fun d => d.cause = .motionAfterEnd) =
      entries.countP Entry.notesEnd := by
  rw [List.countP_filterMap]
  congr 1
  funext e
  rw [Entry.notesEnd]
  cases e.problem? <;> rfl

/-- A course notes a motion after the program's end at most once. -/
theorem ofLines_once (setup : Setup) (mint : Nat → MoveId) (lines : List String) :
    (ofLines setup mint lines).diagnostics.countP (fun d => d.cause = .motionAfterEnd) ≤ 1 := by
  have hc := entriesFrom_countP setup { machine := .ofSetup setup } 0 lines
  have hle := (entriesFrom setup { machine := .ofSetup setup } 0 lines).1.warned.toNat_le
  rw [ofLines_eq_resume, resume, countP_problems]
  omega

/-- **A line that leaves the machine as it was** and makes no motion disturbs no other line. -/
theorem ofLines_insert {setup : Setup} {q : Progress} {xs : List String} {text : String}
    (hq : (entriesFrom setup { machine := .ofSetup setup } 0 xs).1 = q)
    (hm : (q.line setup (text, xs.length)).1.machine = q.machine)
    (he : (q.line setup (text, xs.length)).2.filterMap Entry.motion? = [])
    (mint mint' : Nat → MoveId) (ys : List String) :
    Undisturbed xs.length (ofLines setup mint (xs ++ ys)) (ofLines setup mint' (xs ++ text :: ys)) := by
  obtain ⟨hmachine, hwith⟩ := entriesFrom_insert hq hm ys
  have hparted := entriesFrom_parted hq he ys
  have hwithout : (entriesFrom setup { machine := .ofSetup setup } 0 (xs ++ ys)).2.toList =
      (entriesFrom setup { machine := .ofSetup setup } 0 xs).2.toList ++
        (entriesFrom setup q xs.length ys).2.toList := by
    rw [entriesFrom_append, hq, Nat.zero_add, Array.toList_append]
  have hproblems : (ofLines setup mint (xs ++ ys)).diagnostics = _ :=
    congrArg (List.filterMap Entry.problem?) hwithout
  have hproblems' : (ofLines setup mint' (xs ++ text :: ys)).diagnostics = _ :=
    congrArg (List.filterMap Entry.problem?) hwith
  have hmotions := hparted.filterMap_motion?
  rw [← hwith, ← hwithout] at hmotions
  exact
    { moves := movesOf_makeRoom xs.length mint mint' hmotions
      final := hmachine
      diagnostics := by
        rw [hproblems, hproblems']
        exact hparted.problems_of_unnoted
      diagnostics_of_note := by
        rw [hproblems, hproblems']
        exact hparted.problems_of_noted
      once := ofLines_once setup mint _
      once_with := ofLines_once setup mint' _ }

theorem insertIdx_eq_append {α : Type} (x : α) {xs : List α} {k : Nat} (h : k ≤ xs.length) :
    xs.insertIdx k x = xs.take k ++ x :: xs.drop k := by
  induction k generalizing xs with
  | zero => rfl
  | succ k ih =>
    cases xs with
    | nil => cases h
    | cons y xs =>
      rw [List.insertIdx_succ_cons, ih (Nat.le_of_succ_le_succ h)]
      rfl

/-- **Refused motions disturb nothing.** A line that comes to nothing for the machine that it finds may
be put in anywhere: the other lines bring forth the same moves and problems, and the program ends in
the same state. -/
theorem run_insert_futile (setup : Setup) (mint mint' : Nat → MoveId) (program inserted : Program)
    (k : Nat) (text : String) (hk : k ≤ program.lineCount)
    (hi : inserted.lines = program.lines.insertIdx k text)
    (hf : (Draft.ofLine (machineAt setup program.lines k).motionMode text).Futile setup
      (machineAt setup program.lines k)) :
    ∃ t t' : Timeline,
      run setup mint (fun _ => false) program = .ok t ∧
      run setup mint' (fun _ => false) inserted = .ok t' ∧
      Undisturbed k t t' := by
  refine ⟨_, _, run_unset setup mint program, run_unset setup mint' inserted, ?_⟩
  have hl : (program.lines.take k).length = k := List.length_take_of_le hk
  rw [machineAt] at hf
  generalize hq : (entriesFrom setup { machine := .ofSetup setup } 0 (program.lines.take k)).1 = q at hf
  obtain ⟨hm, he⟩ := Progress.line_of_futile hf k
  rw [motionsOf, List.map_eq_nil_iff] at he
  rw [← hl] at hm he
  have h := ofLines_insert hq hm he mint mint' (program.lines.drop k)
  rwa [hl, List.take_append_drop, ← insertIdx_eq_append text hk, ← hi] at h

/-- Two arcs without a center, a comment and a pause between two moves, after the program's end: nothing
changes but that the note moves to the new line. -/
theorem run_insert_refused_arcs :
    let program : Program := ⟨"part.nc", "G1 X1 M2\nX5"⟩
    let inserted : Program := ⟨"part.nc", "G1 X1 M2\nG2 X10 Y0 G3 X2 M0 (twice)\nX5"⟩
    ∃ t t' : Timeline,
      run {} (MoveId.mint 1) (fun _ => false) program = .ok t ∧
      run {} (MoveId.mint 2) (fun _ => false) inserted = .ok t' ∧
      t.moves.length = 2 ∧ .onLine 1 .motionAfterEnd ∈ t'.diagnostics ∧ Undisturbed 1 t t' := by
  intro program inserted
  obtain ⟨t, t', ht, ht', h⟩ := run_insert_futile {} (MoveId.mint 1) (MoveId.mint 2) program inserted 1
    "G2 X10 Y0 G3 X2 M0 (twice)" (by decide +kernel) (by decide +kernel) (by decide +kernel)
  rw [run_unset] at ht ht'
  cases ht
  cases ht'
  exact ⟨_, _, run_unset _ _ _, run_unset _ _ _, by decide +kernel, by decide +kernel, h⟩

end Timeline

end Toolpath
