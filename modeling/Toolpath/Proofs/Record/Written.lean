import Toolpath.Proofs.Json.RoundTrip
import Toolpath.Proofs.Machine.Range
import Toolpath.Record.Move

/-!
# Records as they are written

`serde_json` writes the doubles that are not finite as `null`, which is no number. So a record reads
back from what is written of it exactly if all its numbers are finite. What it reads back as depends on
how the numbers are read: from the text each finite double `x` is read as `Json.reread x`.

* `Json.written`, `Json.pretty_written`: what the text of a tree holds.
* `Value.fields?_zip`: the fields of a record.
* `MoveId.parse?_text`: identifiers read back.
* `Position.ofValue?_asRead`, `Machine.ofValue?_asRead`, `Arc.ofValue?_asRead`, `Move.ofValue?_asRead`:
  the parts of a move.
* `movesOfValue?_written`, `movesOfValue?_read?`: a course, from its tree and from its text.
-/

namespace Toolpath

open Number (twoTo)

/-! ## Trees -/

namespace Json

mutual

/-- What the text of a tree holds of it: a double that is not finite is written as `null`. -/
def written : Value → Value
  | .real x => if x.isFinite then .real x else .null
  | .unheld => .null
  | .array items => .array (writtenItems items)
  | .table entries => .table (writtenEntries entries)
  | v => v

def writtenItems : List Value → List Value
  | [] => []
  | v :: vs => written v :: writtenItems vs

def writtenEntries : List (String × Value) → List (String × Value)
  | [] => []
  | (key, v) :: entries => (key, written v) :: writtenEntries entries

end

mutual

theorem prettyAt_written (depth : Nat) (v : Value) : prettyAt depth (written v) = prettyAt depth v := by
  cases v with
  | real x =>
    rw [written]
    split
    · rfl
    · rename_i h
      simp only [prettyAt, scalarText, numberText_of_not_isFinite h]
  | array items => rw [written, prettyAt, prettyAt, prettyItems_written]
  | table entries => rw [written, prettyAt, prettyAt, prettyEntries_written]
  | null | bool | integer | unheld | string => simp [written, prettyAt, scalarText]

theorem prettyItems_written (depth : Nat) (items : List Value) :
    prettyItems depth (writtenItems items) = prettyItems depth items := by
  cases items with
  | nil => rfl
  | cons v vs =>
    rw [writtenItems, prettyItems, prettyItems, prettyAt_written depth v, prettyItems_written depth vs]

theorem prettyEntries_written (depth : Nat) (entries : List (String × Value)) :
    prettyEntries depth (writtenEntries entries) = prettyEntries depth entries := by
  cases entries with
  | nil => rfl
  | cons entry entries =>
    rw [writtenEntries, prettyEntries, prettyEntries, prettyAt_written depth entry.2,
      prettyEntries_written depth entries]

end

/-- A text holds no more of a tree. -/
theorem pretty_written (v : Value) : pretty (written v) = pretty v := prettyAt_written 0 v

mutual

theorem asRead_self (v : Value) : asRead (fun x => x) v = written v := by
  cases v with
  | array items => rw [asRead, written, asReadItems_self]
  | table entries => rw [asRead, written, asReadEntries_self]
  | real | null | bool | integer | unheld | string => simp [asRead, written]

theorem asReadItems_self (items : List Value) : asReadItems (fun x => x) items = writtenItems items := by
  cases items with
  | nil => rfl
  | cons v vs => rw [asReadItems, writtenItems, asRead_self v, asReadItems_self vs]

theorem asReadEntries_self (entries : List (String × Value)) :
    asReadEntries (fun x => x) entries = writtenEntries entries := by
  cases entries with
  | nil => rfl
  | cons entry entries => rw [asReadEntries, writtenEntries, asRead_self entry.2, asReadEntries_self entries]

end

end Json

/-! ## Records -/

namespace Value

theorem valuesOf_eq_nil {key : String} {names : List String} (h : key ∉ names) (values : List Value) :
    valuesOf key (names.zip values) = [] := by
  unfold valuesOf
  rw [List.map_eq_nil_iff, List.filter_eq_nil_iff]
  intro entry he hkey
  exact h (of_decide_eq_true hkey ▸ (List.of_mem_zip he).1)

/-- The value of a key that occurs once. -/
theorem valuesOf_zip {names : List String} (hn : names.Nodup) {values : List Value} {key : String}
    {v : Value} (h : (key, v) ∈ names.zip values) : valuesOf key (names.zip values) = [v] := by
  induction names generalizing values with
  | nil => cases h
  | cons name names ih =>
    obtain ⟨hname, hn⟩ := List.nodup_cons.mp hn
    cases values with
    | nil => cases h
    | cons first values =>
      rw [List.zip_cons_cons] at h ⊢
      rcases List.mem_cons.mp h with heq | h
      · cases heq
        have hrest : valuesOf key (names.zip values) = [] := valuesOf_eq_nil hname values
        unfold valuesOf at hrest ⊢
        rw [List.filter_cons_of_pos (by simp), List.map_cons, hrest]
      · have hne : name ≠ key := fun heq => hname (heq ▸ (List.of_mem_zip h).1)
        have hrest := ih hn h
        unfold valuesOf at hrest ⊢
        rwa [List.filter_cons_of_neg (by simpa using hne)]

/-- Keys that differ and have one value each give the fields of a record. -/
theorem fields?_zip {names : List String} (hn : names.Nodup) {values : List Value}
    (hl : values.length = names.length) (d : Dialect) (completeness : Completeness) :
    (Value.table (names.zip values)).fields? d completeness names = some (values.map some) := by
  have hfields : ∀ entries : List (String × Value),
      (∀ entry ∈ entries, field? (names.zip values) entry.1 = some (some entry.2)) →
      (entries.map Prod.fst).mapM (field? (names.zip values)) =
        some ((entries.map Prod.snd).map some) := by
    intro entries h
    induction entries with
    | nil => rfl
    | cons entry entries ih =>
      obtain ⟨he, h⟩ := List.forall_mem_cons.mp h
      simp [List.mapM_cons, he, ih h]
  have h := hfields (names.zip values) fun entry he => by
    rw [field?, valuesOf_zip hn he]
  rwa [List.map_fst_zip (Nat.le_of_eq hl.symm), List.map_snd_zip (Nat.le_of_eq hl)] at h

/-- A list of which each item is read under a condition is read if the condition holds of all. -/
theorem mapM_map_guarded {α β γ : Type} {f : β → Option γ} {g : α → β} {r : α → γ} {c : α → Bool}
    (items : List α) (h : ∀ x ∈ items, f (g x) = if c x then some (r x) else none) :
    (items.map g).mapM f = if items.all c then some (items.map r) else none := by
  induction items with
  | nil => rfl
  | cons x items ih =>
    obtain ⟨hx, h⟩ := List.forall_mem_cons.mp h
    rw [List.map_cons, List.mapM_cons, hx, ih h, List.all_cons, List.map_cons]
    cases c x with
    | false => rfl
    | true => cases items.all c <;> rfl

end Value

/-! ## Identifiers -/

namespace MoveId

theorem hexValue?_hexDigit {d : Nat} (h : d < 16) : hexValue? (Json.hexDigit d) = some d := by
  revert h
  revert d
  decide

/-- The digits of a number by their weights, read from the highest on, give the number. -/
theorem foldl_digits (k n : Nat) :
    ((List.range k).map fun i => n / twoTo (4 * (k - 1 - i)) % 16).foldl (fun n d => 16 * n + d) 0 =
      n % twoTo (4 * k) := by
  have hfour : ∀ j, twoTo (4 * (j + 1)) = 16 * twoTo (4 * j) := by
    intro j
    rw [twoTo, Nat.mul_succ, Nat.pow_eq, Nat.pow_add, Nat.mul_comm]
    rfl
  induction k generalizing n with
  | zero => simp [twoTo, Nat.mod_one]
  | succ k ih =>
    -- all digits but the last are those of the sixteenth part
    have hhead : ((List.range k).map fun i => n / twoTo (4 * (k + 1 - 1 - i)) % 16) =
        (List.range k).map fun i => n / 16 / twoTo (4 * (k - 1 - i)) % 16 := by
      refine List.map_congr_left fun i hi => ?_
      have hi : k + 1 - 1 - i = (k - 1 - i) + 1 := by
        have := List.mem_range.mp hi
        omega
      rw [hi, hfour, Nat.div_div_eq_div_mul]
    rw [List.range_succ, List.map_append, List.foldl_append, hhead, ih, hfour, Nat.mod_mul]
    simp [twoTo, Nat.add_comm]

/-- The written digits are those of the bits. -/
theorem exists_digits (id : MoveId) :
    ∃ ds : List Nat, id.digits = ds.map Json.hexDigit ∧ ds.length = 32 ∧ (∀ d ∈ ds, d < 16) ∧
      ds.foldl (fun n d => 16 * n + d) 0 = id.bits.toNat := by
  refine ⟨(List.range 32).map fun i => id.bits.toNat / twoTo (4 * (32 - 1 - i)) % 16, ?_, by simp, ?_, ?_⟩
  · rw [List.map_map]
    rfl
  · intro d hd
    obtain ⟨i, -, rfl⟩ := List.mem_map.mp hd
    exact Nat.mod_lt _ (by decide)
  · exact (foldl_digits 32 _).trans (Nat.mod_eq_of_lt id.bits.isLt)

theorem ofDigits?_digits (id : MoveId) : ofDigits? id.digits = some id := by
  obtain ⟨ds, hdigits, hlength, hlt, hfold⟩ := id.exists_digits
  have hread : (ds.map Json.hexDigit).mapM hexValue? = some ds :=
    (Value.mapM_map_guarded (r := fun d => d) (c := fun _ => true) ds
      fun d hd => hexValue?_hexDigit (hlt d hd)).trans (by simp)
  unfold ofDigits?
  rw [hdigits, List.length_map, hlength, hread]
  simp [hfold]

/-- A group of digits is cut off at its hyphen. -/
theorem ofGroups?_append {n m : Nat} {ns : List Nat} {group : List Char} (h : group.length = n)
    (rest : List Char) :
    ofGroups? (n :: m :: ns) (group ++ '-' :: rest) =
      (ofGroups? (m :: ns) rest).map (group ++ ·) := by
  subst h
  rw [ofGroups?]
  · simp
  · simp

/-- **Identifiers read back.** -/
theorem parse?_text (id : MoveId) : parse? id.text = some id := by
  have hl : id.digits.length = 32 := by rw [digits, List.length_map, List.length_range]
  have htext : id.text.toList =
      id.digits.take 8 ++ '-' :: ((id.digits.drop 8).take 4 ++ '-' ::
        ((id.digits.drop 12).take 4 ++ '-' :: ((id.digits.drop 16).take 4 ++ '-' ::
          (id.digits.drop 20).take 12))) := by
    simp [text, cut, groups]
  have hlast : (id.digits.drop 20).take 12 = id.digits.drop 20 := List.take_of_length_le (by simp [hl])
  have hjoin : ∀ k n, (id.digits.drop k).take n ++ id.digits.drop (k + n) = id.digits.drop k := by
    intro k n
    rw [← List.drop_drop, List.take_append_drop]
  have hgroups : ofGroups? groups id.text.toList = some id.digits := by
    rw [htext, hlast, groups, ofGroups?_append (by simp [hl]), ofGroups?_append (by simp [hl]),
      ofGroups?_append (by simp [hl]), ofGroups?_append (by simp [hl]), ofGroups?,
      if_pos (by simp [hl])]
    simp only [Option.map_some, hjoin 16 4, hjoin 12 4, hjoin 8 4, List.take_append_drop]
  have hlength : id.text.toList.length = 36 := by
    rw [htext]
    simp [hl]
  unfold parse?
  simp only [hlength, ofHyphenated?, hgroups, Option.bind_some]
  exact id.ofDigits?_digits

end MoveId

/-! ## Scalars -/

section Scalars

open Value Json

variable (f : Float → Float)

theorem need?_real (x : Float) :
    need? float? (some (asRead f (.real x))) = if x.isFinite then some (f x) else none := by
  rw [asRead]
  split <;> rfl

theorem need?_nat {bound n : Nat} (h : n < bound) :
    need? (natBelow? bound) (some (asRead f (.nat n))) = some n := by
  simp [need?, nat, asRead, natBelow?, h]

theorem need?_bool (b : Bool) : need? bool? (some (asRead f (.bool b))) = some b := rfl

theorem need?_id (id : MoveId) : need? MoveId.ofValue? (some (asRead f (.string id.text))) = some id := by
  have hw : asRead f (.string id.text) = .string id.text := rfl
  rw [hw, need?, MoveId.ofValue?, Value.string?, Option.bind_some, id.parse?_text]

/-- A case reads back from its name if the names tell all cases apart. -/
theorem need?_named (d : Dialect) {α : Type} (all : List α) (name : α → String)
    (h : ∀ a, all.find? (fun other => name other = name a) = some a) (a : α) :
    need? (named? d all name) (some (asRead f (.string (name a)))) = some a :=
  h a

end Scalars

/-! ## Moves and their parts -/

section Numbers

/-- Changes the value of every axis. -/
def Position.mapNumbers (f : Float → Float) (p : Position) : Position :=
  ⟨f p.x, f p.y, f p.z, f p.a, f p.b, f p.c⟩

/-- Changes every number of a machine. -/
def Machine.mapNumbers (f : Float → Float) (m : Machine) : Machine :=
  { m with
    position := m.position.mapNumbers f
    feedRate := f m.feedRate
    spindleSpeed := f m.spindleSpeed
    axisOffset := m.axisOffset.mapNumbers f }

/-- Changes every number of an arc. -/
def Arc.mapNumbers (f : Float → Float) (a : Arc) : Arc :=
  { a with
    center := a.center.mapNumbers f
    radius := f a.radius
    startAngle := f a.startAngle
    sweep := f a.sweep }

/-- Changes every number of a move, up to its place and its line. -/
def Move.mapNumbers (f : Float → Float) (m : Move) : Move :=
  { m with
    motion := {
      kind := m.kind
      start := m.start.mapNumbers f
      stop := m.stop.mapNumbers f
      arc := m.arc.map (Arc.mapNumbers f)
      after := m.after.mapNumbers f } }

theorem Move.mapNumbers_self (m : Move) : m.mapNumbers (fun x => x) = m := by
  obtain ⟨id, index, line, kind, start, stop, arc, after⟩ := m
  cases arc <;> rfl

end Numbers

section Records

open Value Json

theorem asRead_table (f : Float → Float) (names : List String) (values : List Value) :
    asRead f (.table (names.zip values)) = .table (names.zip (values.map (asRead f))) := by
  rw [asRead, asReadEntries_zip]

variable (d : Dialect) (f : Float → Float)

theorem Position.ofValue?_asRead (p : Position) :
    Position.ofValue? d (asRead f p.toValue) = if p.isFinite then some (p.mapNumbers f) else none := by
  have hread : (p.toList.map (some ∘ asRead f ∘ .real)).mapM (need? float?) =
      if p.isFinite then some (p.toList.map f) else none :=
    mapM_map_guarded p.toList fun x _ => need?_real f x
  unfold ofValue? toValue
  rw [asRead_table, List.map_map, fields?_zip (by decide) rfl, List.map_map]
  change (List.mapM _ _ >>= PerAxis.ofList?) = _
  rw [hread]
  split <;> rfl

theorem need?_position {p : Position} (h : p.isFinite = true) :
    need? (Position.ofValue? d) (some (asRead f p.toValue)) = some (p.mapNumbers f) :=
  (Position.ofValue?_asRead d f p).trans (if_pos h)

-- A reader of many fields is nested as deep as it has fields. Its reads are closed, so each can be
-- rewritten where it stands, and the nest then computes.
theorem Machine.ofValue?_asRead {m : Machine} (hm : m.InRange) :
    Machine.ofValue? d (asRead f m.toValue) = some (m.mapNumbers f) := by
  unfold ofValue? toValue
  rw [asRead_table, fields?_zip (by decide) rfl]
  dsimp only [Option.bind_eq_bind, Option.bind_some, List.map]
  rw [need?_position d f hm.position,
    need?_named f d MotionKind.all MotionKind.name (fun kind => by cases kind <;> rfl),
    need?_real f m.feedRate, if_pos hm.feedRate.finite,
    need?_real f m.spindleSpeed, if_pos hm.spindleSpeed.finite,
    need?_named f d Spindle.all Spindle.name (fun spindle => by cases spindle <;> rfl),
    need?_nat f hm.tool,
    need?_named f d Coolant.all Coolant.name (fun coolant => by cases coolant <;> rfl),
    need?_named f d Units.all Units.name (fun units => by cases units <;> rfl),
    need?_named f d Plane.all Plane.name (fun plane => by cases plane <;> rfl),
    need?_named f d DistanceMode.all DistanceMode.name (fun mode => by cases mode <;> rfl),
    need?_named f d WorkOffset.all WorkOffset.name (fun slot => by cases slot <;> rfl),
    need?_position d f hm.axisOffset, need?_bool]
  rfl

theorem Arc.ofValue?_asRead {a : Arc} (ha : a.Usable ↔ a.radius.isFinite = true) :
    Arc.ofValue? d (asRead f a.toValue) = if a.radius.isFinite then some (a.mapNumbers f) else none := by
  unfold ofValue? toValue
  rw [asRead_table, fields?_zip (by decide) rfl]
  dsimp only [Option.bind_eq_bind, Option.bind_some, List.map]
  rw [need?_named f d Plane.all Plane.name (fun plane => by cases plane <;> rfl), need?_real f a.radius]
  by_cases hr : a.radius.isFinite = true
  · have hu := ha.mpr hr
    rw [need?_position d f hu.center, if_pos hr, if_pos hr, need?_real f a.startAngle, if_pos hu.startAngle,
      need?_real f a.sweep, if_pos hu.sweep]
    rfl
  · rw [if_neg hr, if_neg hr]
    cases need? (Position.ofValue? d) (some (asRead f a.center.toValue)) <;> rfl

/-- Whether the arc of a move, if it has one, has a finite radius. -/
def Move.hasFiniteRadius (m : Move) : Bool := m.arc.all fun a => a.radius.isFinite

theorem optional?_arc {arc : Option Arc}
    (harc : ∀ a, arc = some a → (a.Usable ↔ a.radius.isFinite = true)) :
    optional? (Arc.ofValue? d) (some (asRead f (ofOption Arc.toValue arc))) =
      if arc.all (fun a => a.radius.isFinite) then some (arc.map (Arc.mapNumbers f)) else none := by
  cases arc with
  | none => rfl
  | some a =>
    have htable : optional? (Arc.ofValue? d) (some (asRead f a.toValue)) =
        (Arc.ofValue? d (asRead f a.toValue)).map some := rfl
    rw [ofOption, htable, Arc.ofValue?_asRead d f (harc a rfl), Option.all_some]
    cases a.radius.isFinite <;> rfl

theorem Move.ofValue?_asRead {m : Move} (hm : m.motion.InRange)
    (hi : m.index < twoTo 64) (hl : m.line < twoTo 64) :
    Move.ofValue? d (asRead f m.toValue) = if m.hasFiniteRadius then some (m.mapNumbers f) else none := by
  have hindex : need? nat? (some (asRead f (.nat m.index))) = some m.index := need?_nat f hi
  have hline : need? nat? (some (asRead f (.nat m.line))) = some m.line := need?_nat f hl
  have hstart : m.start.isFinite = true := hm.start
  have hstop : m.stop.isFinite = true := hm.stop
  have harc : optional? (Arc.ofValue? d) (some (asRead f (ofOption Arc.toValue m.arc))) =
      if m.hasFiniteRadius then some (m.arc.map (Arc.mapNumbers f)) else none := optional?_arc d f hm.arc
  have hafter : need? (Machine.ofValue? d) (some (asRead f m.after.toValue)) = some (m.after.mapNumbers f) :=
    Machine.ofValue?_asRead d f hm.after
  unfold ofValue? toValue
  rw [asRead_table, fields?_zip (by decide) rfl]
  dsimp only [Option.bind_eq_bind, Option.bind_some, List.map]
  rw [need?_id, hindex, hline,
    need?_named f d MotionKind.all MotionKind.name (fun kind => by cases kind <;> rfl),
    need?_position d f hstart, need?_position d f hstop, harc, hafter]
  cases m.hasFiniteRadius <;> rfl

/-- Whatever the numbers of a course are read as, it is read exactly if all radii are finite. -/
theorem movesOfValue?_asRead {moves : List Move} (hm : ∀ m ∈ moves, m.motion.InRange)
    (hn : ∀ m ∈ moves, m.index < twoTo 64 ∧ m.line < twoTo 64) :
    movesOfValue? d (asRead f (movesToValue moves)) =
      if moves.all Move.hasFiniteRadius then some (moves.map (Move.mapNumbers f)) else none := by
  have hread := mapM_map_guarded (f := Move.ofValue? d) (g := asRead f ∘ Move.toValue) moves fun m h =>
    Move.ofValue?_asRead d f (hm m h) (hn m h).1 (hn m h).2
  rw [movesToValue, asRead, asReadItems_eq, List.map_map]
  exact hread

/-- **Courses.** What is written of moves between finite positions reads back exactly if all their radii
are finite. -/
theorem movesOfValue?_written {moves : List Move} (hm : ∀ m ∈ moves, m.motion.InRange)
    (hn : ∀ m ∈ moves, m.index < twoTo 64 ∧ m.line < twoTo 64) :
    movesOfValue? d (written (movesToValue moves)) =
      if moves.all Move.hasFiniteRadius then some moves else none := by
  have hsame : moves.map (Move.mapNumbers fun x => x) = moves :=
    (List.map_congr_left fun m _ => m.mapNumbers_self).trans (List.map_id moves)
  have hread := movesOfValue?_asRead d (fun x => x) hm hn
  rwa [asRead_self, hsame] at hread

/-! ### From texts -/

theorem Position.holdsWords_toValue (p : Position) : holdsWords p.toValue = true := by
  refine holdsWords_zip _ fun v hv => ?_
  obtain ⟨x, -, rfl⟩ := List.mem_map.mp hv
  rfl

theorem Machine.holdsWords_toValue {m : Machine} (ht : m.tool < twoTo 32) : holdsWords m.toValue = true := by
  have htool := holdsWords_nat (Nat.lt_trans ht (by decide))
  refine holdsWords_zip _ ?_
  simp only [List.forall_mem_cons, List.not_mem_nil, false_imp_iff, implies_true, Position.holdsWords_toValue, htool,
    holdsWords, and_self]

theorem Arc.holdsWords_toValue (a : Arc) : holdsWords a.toValue = true := by
  refine holdsWords_zip _ ?_
  simp only [List.forall_mem_cons, List.not_mem_nil, false_imp_iff, implies_true, Position.holdsWords_toValue,
    holdsWords, and_self]

theorem Move.holdsWords_toValue {m : Move} (ht : m.after.tool < twoTo 32) (hi : m.index < twoTo 64)
    (hl : m.line < twoTo 64) : holdsWords m.toValue = true := by
  have harc : holdsWords (ofOption Arc.toValue m.arc) = true := by
    cases m.arc with
    | none => rfl
    | some a => exact a.holdsWords_toValue
  refine holdsWords_zip _ ?_
  simp only [List.forall_mem_cons, List.not_mem_nil, false_imp_iff, implies_true, Position.holdsWords_toValue,
    Machine.holdsWords_toValue ht, holdsWords_nat hi, holdsWords_nat hl, harc, holdsWords, and_self]

/-- **Courses from their texts.** The text of moves between finite positions is read exactly if all their
radii are finite, and then each number is what is read from its digits. -/
theorem movesOfValue?_read? {moves : List Move} (hm : ∀ m ∈ moves, m.motion.InRange)
    (hn : ∀ m ∈ moves, m.index < twoTo 64 ∧ m.line < twoTo 64) :
    (read? (pretty (movesToValue moves))).bind (movesOfValue? d) =
      if moves.all Move.hasFiniteRadius then some (moves.map (Move.mapNumbers reread)) else none := by
  have hwords : holdsWords (movesToValue moves) = true := by
    refine itemsHoldWords_of_forall fun v hv => ?_
    obtain ⟨m, hmem, rfl⟩ := List.mem_map.mp hv
    exact Move.holdsWords_toValue (hm m hmem).after.tool (hn m hmem).1 (hn m hmem).2
  rw [read?_pretty hwords, Option.bind_some, movesOfValue?_asRead d reread hm hn]

end Records

end Toolpath
