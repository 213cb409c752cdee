import Toolpath.Proofs.Scanner.Steps

/-!
# Coverage of a line by its tokens

Each call of `Tokenizer.next` skips blanks and then takes a stretch of the line, which begins at a
character that the token names. The next call goes on behind it, so the stretches follow each other, and
nothing but blanks lies between them.

* `next?_suffix`: what is left after an item is an end of the line.
* `calls`, `map_token_calls`: the calls that find the items of a line.
* `On`, `On.moveTo`: a scanner that stands on a line.
* `Call.Sound`, `On.sound`: one call. `Tiled`, `On.tiled`: all calls.
* `tokens_cover`: all of it, for every line.
-/

namespace Toolpath

open Text

/-- The column that an item reports. -/
def Token.column? : Token → Option Nat
  | .word _ _ _ column | .error (.unexpectedCharacter column _) | .error (.missingValue column _)
  | .error (.invalidNumber column _ _) => some column
  | _ => none

/-- What an item says of the character that it begins with. -/
def Token.BeginsWith (c : Char) : Token → Prop
  | .word letter _ _ _ | .error (.missingValue _ letter) | .error (.invalidNumber _ letter _) =>
    c.toUpper = letter
  | .error (.unexpectedCharacter _ found) => c = found
  | .blockNumber _ => c.toUpper = 'N'
  | .comment _ => c = '(' ∨ c = ';'
  | .programMarker => c = '%'
  | .blockDelete => c = '/'

namespace Scanner

/-! ## What is left -/

theorem skipBlanks_suffix (s : List Char) : skipBlanks s <:+ s := List.dropWhile_suffix isBlank

theorem numerals_suffix (s : List Char) : (numerals s).2 <:+ s := by
  fun_induction numerals s with
  | case2 c s hc ds rest h ih =>
    rw [h] at ih
    exact ih.trans (List.suffix_cons c s)
  | case4 c s hc hb d r h hd ds rest hr ih =>
    have hs := skipBlanks_suffix s
    rw [h] at hs
    rw [hr] at ih
    exact ((ih.trans (List.suffix_cons d r)).trans hs).trans (List.suffix_cons c s)
  | _ => exact List.suffix_refl _

theorem numberText_suffix (s : List Char) : (numberText s).2 <:+ s := by
  cases h : skipBlanks s with
  | nil =>
    rw [numberText_of_nil h]
    exact List.nil_suffix
  | cons c r =>
    have hs := skipBlanks_suffix s
    rw [h] at hs
    cases hc : isSign c with
    | true =>
      rw [numberText_of_isSign h hc]
      exact ((numerals_suffix r).trans (List.suffix_cons c r)).trans hs
    | false =>
      rw [numberText_of_not_isSign h hc]
      exact (numerals_suffix (c :: r)).trans hs

theorem item_suffix (fresh : Bool) (column : Nat) (c : Char) (s : List Char) :
    (item fresh column c s).2 <:+ s := by
  cases ho : isOpener c with
  | true =>
    rw [item_of_isOpener ho]
    exact List.nil_suffix
  | false =>
    cases ha : c.isAlpha with
    | true =>
      rw [item_of_isAlpha ha]
      exact numberText_suffix s
    | false => simpa only [item_of_mark ho ha] using List.suffix_refl s

theorem skipBlanks_of_next?_none {t : Scanner} (h : t.next? = none) : skipBlanks t.rest = [] := by
  cases hs : skipBlanks t.rest with
  | nil => rfl
  | cons c r =>
    rw [next?_of_cons hs] at h
    cases h

/-- **What a call does.** -/
theorem next?_cases {t t' : Scanner} {token : Token} (h : t.next? = some (token, t')) :
    ∃ c r, skipBlanks t.rest = c :: r ∧ token = (item t.fresh t.start.column c r).1 ∧
      t' = { t.start.moveTo (item t.fresh t.start.column c r).2 with fresh := false } := by
  cases hs : skipBlanks t.rest with
  | nil =>
    rw [next?_of_nil hs] at h
    cases h
  | cons c r =>
    rw [next?_of_cons hs] at h
    cases h
    exact ⟨c, r, rfl, rfl, rfl⟩

theorem next?_suffix {t t' : Scanner} {token : Token} (h : t.next? = some (token, t')) : t'.rest <:+ t.rest := by
  obtain ⟨c, r, hs, -, rfl⟩ := next?_cases h
  have hrest := skipBlanks_suffix t.rest
  rw [hs] at hrest
  exact ((item_suffix _ _ c r).trans (List.suffix_cons c r)).trans hrest

/-! ## Calls -/

/-- A call of the scanner that finds an item. -/
structure Call where
  before : Scanner
  token : Token
  after : Scanner

namespace Call

/-- The place of the character with which the item begins. -/
def start (call : Call) : Nat := call.before.start.column

/-- The place behind the item. -/
def stop (call : Call) : Nat := call.after.column

end Call

/-- The calls that find the items that are left on the line. -/
def calls (t : Scanner) : List Call :=
  match _h : t.next? with
  | none => []
  | some (token, t') => ⟨t, token, t'⟩ :: calls t'
termination_by t.rest.length
decreasing_by exact next?_rest_length _h

theorem map_token_calls (t : Scanner) : t.calls.map Call.token = t.toList := by
  fun_induction calls t with
  | case1 t h => rw [toList_of_none h, List.map_nil]
  | case2 t token t' h ih => rw [toList_of_some h, List.map_cons, ih]

/-! ## Scanners on a line -/

/-- A scanner that stands on a line: not beyond its end, and what is left begins at the scanner's column. -/
structure On (chars : List Char) (t : Scanner) : Prop where
  column_le : t.column ≤ chars.length
  rest_eq : t.rest = chars.drop t.column

namespace On

variable {chars : List Char} {t : Scanner}

theorem ofLine (line : String) : On line.toList (ofLine line) := ⟨Nat.zero_le _, rfl⟩

theorem length_rest (h : On chars t) : t.column + t.rest.length = chars.length := by
  rw [h.rest_eq, List.length_drop]
  exact Nat.add_sub_cancel' h.column_le

theorem moveTo (h : On chars t) {r : List Char} (hr : r <:+ t.rest) : On chars (t.moveTo r) where
  column_le := by
    have := h.length_rest
    simp only [Scanner.moveTo]
    omega
  rest_eq := by
    have hdrop := List.suffix_iff_eq_drop.mp hr
    rw [h.rest_eq, List.drop_drop, ← h.rest_eq] at hdrop
    exact hdrop

theorem start (h : On chars t) : On chars t.start := h.moveTo (skipBlanks_suffix t.rest)

theorem getElem?_column (h : On chars t) {c : Char} {r : List Char} (hr : t.rest = c :: r) :
    chars[t.column]? = some c := by
  have hhead := congrArg List.head? h.rest_eq
  rw [hr, List.head?_drop] at hhead
  exact hhead.symm

/-- Nothing but blanks is skipped. -/
theorem isBlank_of_lt_start (h : On chars t) {j : Nat} {c : Char} (hle : t.column ≤ j)
    (hlt : j < t.start.column) (hj : chars[j]? = some c) : isBlank c = true := by
  have hsplit : t.rest.takeWhile isBlank ++ skipBlanks t.rest = t.rest := List.takeWhile_append_dropWhile
  have hlength := congrArg List.length hsplit
  rw [List.length_append] at hlength
  have hcolumn : t.start.column = t.column + (t.rest.takeWhile isBlank).length := by
    simp only [Scanner.start, Scanner.moveTo]
    omega
  obtain ⟨k, rfl⟩ := Nat.exists_eq_add_of_le hle
  rw [← List.getElem?_drop, ← h.rest_eq, ← hsplit, List.getElem?_append_left (by omega)] at hj
  exact List.all_eq_true.mp List.all_takeWhile c (List.mem_of_getElem? hj)

/-- Behind the last item there are only blanks. -/
theorem isBlank_of_none (h : On chars t) (hn : t.next? = none) {j : Nat} {c : Char} (hle : t.column ≤ j)
    (hj : chars[j]? = some c) : isBlank c = true := by
  have hrest : t.start.rest = [] := skipBlanks_of_next?_none hn
  refine h.isBlank_of_lt_start hle ?_ hj
  obtain ⟨hlt, -⟩ := List.getElem?_eq_some_iff.mp hj
  have hlength := h.start.length_rest
  rw [hrest, List.length_nil] at hlength
  omega

end On

/-! ## One call -/

/-- What an item says of the place at which it stands. -/
structure StandsAt (fresh : Bool) (column : Nat) (c : Char) (token : Token) : Prop where
  begins : token.BeginsWith c
  column : ∀ k ∈ token.column?, k = column
  fresh : token = .blockDelete → fresh = true

section StandsAt

variable (fresh : Bool) (column : Nat) (c : Char)

theorem wordToken_standsAt (text : List Char) : StandsAt fresh column c (wordToken c.toUpper column text) := by
  unfold wordToken
  split
  · exact ⟨rfl, by simp [Token.column?], nofun⟩
  · dsimp only
    split
    · exact ⟨rfl, by simp [Token.column?], nofun⟩
    · split
      · next hN =>
        split
        · split
          · exact ⟨hN, nofun, nofun⟩
          · exact ⟨rfl, by simp [Token.column?], nofun⟩
        · exact ⟨rfl, by simp [Token.column?], nofun⟩
      · exact ⟨rfl, by simp [Token.column?], nofun⟩

theorem markToken_standsAt : StandsAt fresh column c (markToken fresh column c) := by
  unfold markToken
  split
  · next hc => exact ⟨hc, nofun, nofun⟩
  · split
    · next hc =>
      simp only [Bool.and_eq_true, decide_eq_true_eq] at hc
      exact ⟨hc.1, nofun, fun _ => hc.2⟩
    · exact ⟨rfl, by simp [Token.column?], nofun⟩

theorem item_standsAt (s : List Char) : StandsAt fresh column c (item fresh column c s).1 := by
  cases ho : isOpener c with
  | true =>
    rw [item_of_isOpener ho]
    simp only [isOpener, Bool.or_eq_true, decide_eq_true_eq] at ho
    exact ⟨ho, by simp [Token.column?], by simp⟩
  | false =>
    cases ha : c.isAlpha with
    | true =>
      rw [item_of_isAlpha ha]
      exact wordToken_standsAt fresh column c (numberText s).1
    | false =>
      rw [item_of_mark ho ha]
      exact markToken_standsAt fresh column c

end StandsAt

/-- What a call does to a line: it skips blanks and takes a stretch of the line that is not empty. The item
tells of the first character of the stretch, and of no other place. -/
structure Call.Sound (chars : List Char) (call : Call) : Prop where
  called : call.before.next? = some (call.token, call.after)
  before : On chars call.before
  after : On chars call.after
  le_start : call.before.column ≤ call.start
  start_lt : call.start < call.stop
  gap : ∀ (j : Nat) (c : Char), call.before.column ≤ j → j < call.start → chars[j]? = some c →
    isBlank c = true
  begins : ∃ c, chars[call.start]? = some c ∧ isBlank c = false ∧ call.token.BeginsWith c
  column : ∀ k ∈ call.token.column?, k = call.start

/-- **One call.** -/
theorem On.sound {chars : List Char} {t t' : Scanner} {token : Token} (h : On chars t)
    (hn : t.next? = some (token, t')) : Call.Sound chars ⟨t, token, t'⟩ := by
  obtain ⟨c, r, hs, rfl, rfl⟩ := next?_cases hn
  have hrest : t.start.rest = c :: r := hs
  have hsuffix := item_suffix t.fresh t.start.column c r
  have hstands := item_standsAt t.fresh t.start.column c r
  have hafter : On chars (t.start.moveTo (item t.fresh t.start.column c r).2) :=
    h.start.moveTo (hrest ▸ hsuffix.trans (List.suffix_cons c r))
  exact
    { called := hn
      before := h
      after := ⟨hafter.column_le, hafter.rest_eq⟩
      le_start := Nat.le_add_right _ _
      start_lt := by
        have hle := hsuffix.length_le
        simp only [Call.start, Call.stop, Scanner.moveTo, hrest, List.length_cons]
        omega
      gap := fun j d => h.isBlank_of_lt_start
      begins := ⟨c, h.start.getElem?_column hrest, isBlank_of_skipBlanks hs, hstands.begins⟩
      column := hstands.column }

/-! ## All calls -/

/-- Calls that go on from a place of a line to its end: each begins where the one before it stops, and only
blanks are left behind the last one. -/
inductive Tiled (chars : List Char) : Nat → List Call → Prop where
  | nil {i : Nat} (h : ∀ (j : Nat) (c : Char), i ≤ j → chars[j]? = some c → isBlank c = true) : Tiled chars i []
  | cons {call : Call} {rest : List Call} (hs : call.Sound chars) (h : Tiled chars call.stop rest) :
      Tiled chars call.before.column (call :: rest)

/-- **All calls.** -/
theorem On.tiled {chars : List Char} {t : Scanner} (h : On chars t) : Tiled chars t.column t.calls := by
  fun_induction calls t with
  | case1 t hn => exact .nil fun j c => h.isBlank_of_none hn
  | case2 t token t' hn ih =>
    have hs := h.sound hn
    exact .cons hs (ih hs.after)

namespace Tiled

variable {chars : List Char} {i : Nat} {l : List Call}

theorem sound (h : Tiled chars i l) : ∀ call ∈ l, call.Sound chars := by
  induction h with
  | nil _ => exact fun call hc => absurd hc List.not_mem_nil
  | cons hs _ ih => exact List.forall_mem_cons.mpr ⟨hs, ih⟩

theorem le_start (h : Tiled chars i l) : ∀ call ∈ l, i ≤ call.start := by
  induction h with
  | nil _ => exact fun call hc => absurd hc List.not_mem_nil
  | cons hs _ ih =>
    refine List.forall_mem_cons.mpr ⟨hs.le_start, fun call hc => ?_⟩
    exact Nat.le_trans (Nat.le_trans hs.le_start (Nat.le_of_lt hs.start_lt)) (ih call hc)

/-- The stretches follow each other. -/
theorem pairwise (h : Tiled chars i l) : l.Pairwise fun a b => a.stop ≤ b.start := by
  induction h with
  | nil _ => exact .nil
  | cons _ h ih => exact .cons h.le_start ih

/-- Whatever is no blank is taken. -/
theorem covers (h : Tiled chars i l) {j : Nat} {c : Char} (hi : i ≤ j) (hj : chars[j]? = some c)
    (hc : isBlank c = false) : ∃ call ∈ l, call.start ≤ j ∧ j < call.stop := by
  induction h with
  | nil hblank =>
    rw [hblank j c hi hj] at hc
    cases hc
  | @cons call rest hs _ ih =>
    by_cases hstop : j < call.stop
    · refine ⟨call, List.mem_cons_self, ?_, hstop⟩
      -- before the stretch there are only blanks
      refine Nat.le_of_not_lt fun hlt => ?_
      rw [hs.gap j c hi hlt hj] at hc
      cases hc
    · obtain ⟨other, hmem, hother⟩ := ih (Nat.le_of_not_lt hstop)
      exact ⟨other, List.mem_cons_of_mem call hmem, hother⟩

/-- Every call takes at least one character. -/
theorem length_le (h : Tiled chars i l) (hi : i ≤ chars.length) : i + l.length ≤ chars.length := by
  induction h with
  | nil _ => exact hi
  | cons hs _ ih =>
    have := ih hs.after.column_le
    have := hs.le_start
    have := hs.start_lt
    rw [List.length_cons]
    omega

theorem columns (h : Tiled chars i l) :
    ((l.map Call.token).filterMap Token.column?).Pairwise (· < ·) := by
  rw [List.filterMap_map, List.pairwise_filterMap]
  refine h.pairwise.imp_of_mem fun {a b} ha hb hab k hk k' hk' => ?_
  have hsa := h.sound a ha
  rw [hsa.column k hk, (h.sound b hb).column k' hk']
  exact Nat.lt_of_lt_of_le hsa.start_lt hab

end Tiled

/-! ## Markers of deleted blocks -/

/-- Behind an item nothing marks a block that may be deleted. -/
theorem not_blockDelete_of_not_fresh (t : Scanner) (hf : t.fresh = false) :
    ∀ call ∈ t.calls, call.token ≠ .blockDelete := by
  fun_induction calls t with
  | case1 t hn => exact fun call hc => absurd hc List.not_mem_nil
  | case2 t token t' hn ih =>
    obtain ⟨c, r, -, rfl, rfl⟩ := next?_cases hn
    refine List.forall_mem_cons.mpr ⟨fun h => ?_, ih rfl⟩
    rw [(item_standsAt _ _ _ _).fresh h] at hf
    cases hf

theorem before_of_blockDelete (line : String) :
    ∀ call ∈ (ofLine line).calls, call.token = .blockDelete → call.before = ofLine line := by
  rw [calls]
  split
  · exact fun call hc => absurd hc List.not_mem_nil
  · next token t' hn =>
    obtain ⟨c, r, -, -, rfl⟩ := next?_cases hn
    refine List.forall_mem_cons.mpr ⟨fun _ => rfl, fun call hc h => ?_⟩
    exact absurd h (not_blockDelete_of_not_fresh _ rfl call hc)

/-! ## Lines -/

/-- How the calls that find its items divide a line. -/
structure Covered (chars : List Char) (calls : List Call) : Prop where
  /-- Every call goes on by at least one character and not beyond the end. -/
  sound : ∀ call ∈ calls, call.Sound chars
  length_le : calls.length ≤ chars.length
  apart : calls.Pairwise fun a b => a.stop ≤ b.start
  covers : ∀ (j : Nat) (c : Char), chars[j]? = some c → isBlank c = false →
    ∃ call ∈ calls, call.start ≤ j ∧ j < call.stop
  columns : ((calls.map Call.token).filterMap Token.column?).Pairwise (· < ·)
  /-- The marker of a block that may be deleted is the first character that is no blank. -/
  deletes : ∀ call ∈ calls, call.token = .blockDelete →
    chars[call.start]? = some '/' ∧
      ∀ (j : Nat) (c : Char), j < call.start → chars[j]? = some c → isBlank c = true

/-- **The scanner divides the line.** Whatever the line is, each call that finds an item takes a stretch of it
that is not empty, so that there are at most as many items as characters. The stretches follow each other
and hold all that is no blank. Columns grow from item to item, and each is the place of the character that
the item tells of. -/
theorem tokens_cover (line : String) :
    (ofLine line).calls.map Call.token = tokens line ∧ Covered line.toList (ofLine line).calls := by
  have h : Tiled line.toList 0 (ofLine line).calls := (On.ofLine line).tiled
  refine ⟨map_token_calls _, ?_⟩
  exact
    { sound := h.sound
      length_le := by simpa using h.length_le (Nat.zero_le _)
      apart := h.pairwise
      covers := fun j c => h.covers (Nat.zero_le j)
      columns := h.columns
      deletes := fun call hc hd => by
        have hs := h.sound call hc
        obtain ⟨c, hchar, -, hbegins⟩ := hs.begins
        rw [hd] at hbegins
        refine ⟨hbegins ▸ hchar, fun j d hj => hs.gap j d ?_ hj⟩
        rw [before_of_blockDelete line call hc hd]
        exact Nat.zero_le j }

example : ((ofLine " / x (a) b").calls.map fun call => (call.start, call.stop)) = [(1, 2), (3, 5), (5, 10)] := by
  decide +kernel

end Scanner

end Toolpath
