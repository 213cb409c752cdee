import Toolpath.Proofs.Job.Staleness
import Toolpath.Proofs.Timeline.Chain

/-!
# Exactness of the selection tables

`SelectionIndex.new` makes the tables of a course in one pass over its moves. Each of them then knows as
much as the course itself: a place, an identifier and a line lead to the moves that have them, and to no
others.

* `getElem?_enterId`, `getD_enterLine`: what the pass leaves under an identifier and under a line.
* `SelectionIndex.Exact`: every look-up answers what the course says.
* `eq_range'_of_gapless`: places that leave no gap are consecutive.
* `SelectionIndex.lookups_exact`: the tables of any course are exact while they are fresh, and the moves of
  one line of a program are consecutive.
-/

namespace Toolpath

/-- Places in order that leave no gap are consecutive. -/
theorem eq_range'_of_gapless {places : List Nat} (hsorted : places.Pairwise (· < ·))
    (hgapless : ∀ i j k, i ∈ places → k ∈ places → i ≤ j → j ≤ k → j ∈ places) :
    ∃ first, places = List.range' first places.length := by
  induction places with
  | nil => exact ⟨0, rfl⟩
  | cons i places ih =>
    rw [List.pairwise_cons] at hsorted
    have hrest : ∀ a j k, a ∈ places → k ∈ places → a ≤ j → j ≤ k → j ∈ places := by
      intro a j k ha hk haj hjk
      have hlt := hsorted.1 a ha
      exact (List.mem_cons.mp (hgapless a j k (.tail i ha) (.tail i hk) haj hjk)).resolve_left (by omega)
    obtain ⟨first, hfirst⟩ := ih hsorted.2 hrest
    refine ⟨i, ?_⟩
    cases places with
    | nil => rfl
    | cons next places =>
      -- the place after the first one is taken, so the others begin there
      have hnext : i < next := hsorted.1 next (.head places)
      have hsucc : i + 1 ∈ next :: places :=
        (List.mem_cons.mp (hgapless i (i + 1) next (.head _) (.tail i (.head _)) (by omega) hnext)).resolve_left
          (by omega)
      have hhead : next = first := by
        rw [List.length_cons, List.range'_succ] at hfirst
        exact (List.cons.inj hfirst).1
      rw [hfirst, List.mem_range'_1] at hsucc
      have hle : next = i + 1 := by omega
      rw [List.length_cons, List.range'_succ, ← hle]
      exact congrArg (i :: ·) (hhead ▸ hfirst)

namespace SelectionIndex

/-! ## One pass over the moves -/

section Pass

variable (entries : List (Move × Nat))

/-- Under an identifier stands the place that was entered last, if any was. -/
theorem getElem?_enterId (table : Std.HashMap MoveId Nat) (id : MoveId) :
    (entries.foldl enterId table)[id]? =
      ((entries.filter fun e => e.1.id = id).getLast?.map Prod.snd).or table[id]? := by
  induction entries generalizing table with
  | nil => simp
  | cons e entries ih =>
    rw [List.foldl_cons, ih, enterId, Std.HashMap.getElem?_insert]
    by_cases hid : e.1.id = id
    · cases h : (entries.filter fun e => e.1.id = id).getLast? <;> simp [hid, h, List.getLast?_cons]
    · simp [hid]

/-- Under a line stand the places that were entered for it, in order. -/
theorem getD_enterLine (table : Std.HashMap Nat (Array Nat)) (line : Nat) :
    ((entries.foldl enterLine table).getD line #[]).toList =
      (table.getD line #[]).toList ++ (entries.filter fun e => e.1.line = line).map Prod.snd := by
  induction entries generalizing table with
  | nil => simp
  | cons e entries ih =>
    rw [List.foldl_cons, ih, enterLine, Std.HashMap.getD_insert]
    by_cases hline : e.1.line = line
    · simp [hline]
    · simp [hline]

end Pass

section Tables

variable {generation live : Nat} {moves : List Move}

/-- Different moves have different identifiers, so an identifier has one place. -/
theorem place_unique (hids : (moves.map Move.id).Nodup) {i j : Nat} {m n : Move} (hm : moves[i]? = some m)
    (hn : moves[j]? = some n) (he : m.id = n.id) : i = j := by
  obtain ⟨hi, -⟩ := List.getElem?_eq_some_iff.mp hm
  refine (List.getElem?_inj (by rwa [List.length_map]) hids).mp ?_
  rw [List.getElem?_map, List.getElem?_map, hm, hn, Option.map_some, Option.map_some, he]

/-- The table of identifiers knows the place of every move. -/
theorem byId_eq_some_iff (generation : Nat) (hids : (moves.map Move.id).Nodup) {id : MoveId} {i : Nat} :
    (ofMoves generation moves).byId[id]? = some i ↔ ∃ m, moves[i]? = some m ∧ m.id = id := by
  have hbyId : (ofMoves generation moves).byId[id]? =
      (moves.zipIdx.filter fun e => e.1.id = id).getLast?.map Prod.snd := by
    simp [ofMoves, getElem?_enterId]
  have hmem {e : Move × Nat} : e ∈ (moves.zipIdx.filter fun e => e.1.id = id) ↔
      moves[e.2]? = some e.1 ∧ e.1.id = id := by
    simp [List.mem_filter, List.mem_zipIdx_iff_getElem?]
  rw [hbyId, Option.map_eq_some_iff]
  constructor
  · rintro ⟨⟨m, j⟩, hlast, rfl⟩
    exact ⟨m, hmem.mp (List.mem_of_getLast? hlast)⟩
  · rintro ⟨m, hm, hid⟩
    have hin : (m, i) ∈ moves.zipIdx.filter fun e => e.1.id = id := hmem.mpr ⟨hm, hid⟩
    obtain ⟨⟨n, j⟩, hlast⟩ := Option.isSome_iff_exists.mp
      (List.getLast?_isSome.mpr (List.ne_nil_of_mem hin))
    obtain ⟨hn, hnid⟩ := hmem.mp (List.mem_of_getLast? hlast)
    exact ⟨(n, j), hlast, place_unique hids hn hm (hnid.trans hid.symm)⟩

/-- The places of the moves that a line commands. -/
def placesOn (line : Nat) (moves : List Move) : List Nat :=
  (moves.zipIdx.filter fun e => e.1.line = line).map Prod.snd

theorem mem_placesOn {line i : Nat} :
    i ∈ placesOn line moves ↔ ∃ m, moves[i]? = some m ∧ m.line = line := by
  simp [placesOn, List.mem_filter, List.mem_zipIdx_iff_getElem?]

theorem pairwise_placesOn (line : Nat) (moves : List Move) : (placesOn line moves).Pairwise (· < ·) := by
  have hsub : (placesOn line moves).Sublist (moves.zipIdx.map Prod.snd) := List.filter_sublist.map Prod.snd
  rw [List.zipIdx_map_snd] at hsub
  exact (List.pairwise_lt_range' 1).sublist hsub

/-- The places of a line leave no gap if lines never decrease along the moves. -/
theorem placesOn_eq_range' (hsorted : (moves.map Move.line).Pairwise (· ≤ ·)) (line : Nat) :
    ∃ first count, placesOn line moves = List.range' first count := by
  have hle : ∀ (i j : Nat) (m n : Move), i ≤ j → moves[i]? = some m → moves[j]? = some n → m.line ≤ n.line := by
    intro i j m n hij hm hn
    obtain ⟨hi, rfl⟩ := List.getElem?_eq_some_iff.mp hm
    obtain ⟨hj, rfl⟩ := List.getElem?_eq_some_iff.mp hn
    rcases Nat.eq_or_lt_of_le hij with rfl | hlt
    · exact Nat.le_refl _
    · exact List.pairwise_iff_getElem.mp (List.pairwise_map.mp hsorted) i j hi hj hlt
  obtain ⟨first, hfirst⟩ := eq_range'_of_gapless (pairwise_placesOn line moves) fun i j k hi hk hij hjk => by
    obtain ⟨m, hm, rfl⟩ := mem_placesOn.mp hi
    obtain ⟨n, hn, he⟩ := mem_placesOn.mp hk
    obtain ⟨hlt, -⟩ := List.getElem?_eq_some_iff.mp hn
    have hbetween : moves[j]? = some moves[j] := List.getElem?_eq_getElem (by omega)
    refine mem_placesOn.mpr ⟨_, hbetween, Nat.le_antisymm ?_ (hle i j _ _ hij hm hbetween)⟩
    exact he ▸ hle j k _ _ hjk hbetween hn
  exact ⟨first, _, hfirst⟩

/-! ## Look-ups -/

/-- Every look-up through the tables answers what a list of moves says. -/
structure Exact (t : SelectionIndex) (live : Nat) (moves : List Move) : Prop where
  moveAt_ok : ∀ i m, t.moveAt live i = .ok m ↔ moves[i]? = some m
  moveAt_outOfRange : ∀ i, t.moveAt live i = .error (.outOfRange i moves.length) ↔ moves.length ≤ i
  indexOf_ok : ∀ id i, t.indexOf live id = .ok i ↔ ∃ m, moves[i]? = some m ∧ m.id = id
  indexOf_unknown : ∀ id, t.indexOf live id = .error (.unknownMove id) ↔ ∀ m ∈ moves, m.id ≠ id
  /-- From an identifier to its place and on to the move leads to the move that has it. -/
  moveAt_indexOf : ∀ id m, (do t.moveAt live (← t.indexOf live id)) = .ok m ↔ m ∈ moves ∧ m.id = id
  /-- From a place to its move and on to the identifier leads back to the place. -/
  indexOf_moveAt : ∀ i j, (do t.indexOf live (← t.moveAt live i).id) = .ok j ↔ i < moves.length ∧ j = i
  /-- A line has exactly the places of its moves, in order. -/
  movesOnLine_ok : ∀ line, ∃ places, t.movesOnLine live line = .ok places ∧ places.Pairwise (· < ·) ∧
    ∀ i, i ∈ places ↔ ∃ m, moves[i]? = some m ∧ m.line = line
  lineOf_ok : ∀ i line, t.lineOf live i = .ok line ↔ ∃ m, moves[i]? = some m ∧ m.line = line
  /-- A place stands under the line of its move and under no other. -/
  one_line : ∀ i < moves.length, ∃ line, t.lineOf live i = .ok line ∧
    ∀ other places, t.movesOnLine live other = .ok places → (i ∈ places ↔ other = line)

section Fresh

variable (hlive : live = generation)
include hlive

theorem moveAt_ofMoves_ok {i : Nat} {m : Move} :
    (ofMoves generation moves).moveAt live i = .ok m ↔ moves[i]? = some m := by
  have hcheck : (ofMoves generation moves).check live = .ok () := check_of_eq hlive
  have hmoves : (ofMoves generation moves).moves[i]? = moves[i]? := List.getElem?_toArray
  simp only [moveAt, hcheck, hmoves]
  cases moves[i]? with
  | none => constructor <;> intro h <;> cases h
  | some n => exact ⟨fun h => congrArg some (Except.ok.inj h), fun h => congrArg _ (Option.some.inj h)⟩

theorem moveAt_ofMoves_outOfRange {i : Nat} :
    (ofMoves generation moves).moveAt live i = .error (.outOfRange i moves.length) ↔ moves.length ≤ i := by
  have hcheck : (ofMoves generation moves).check live = .ok () := check_of_eq hlive
  have hmoves : (ofMoves generation moves).moves[i]? = moves[i]? := List.getElem?_toArray
  simp only [moveAt, hcheck, hmoves, size]
  rw [← List.getElem?_eq_none_iff]
  cases moves[i]? with
  | none => exact iff_of_true rfl rfl
  | some n => constructor <;> intro h <;> cases h

theorem movesOnLine_ofMoves (line : Nat) :
    (ofMoves generation moves).movesOnLine live line = .ok (placesOn line moves) := by
  have hcheck : (ofMoves generation moves).check live = .ok () := check_of_eq hlive
  have hplaces : ((ofMoves generation moves).byLine.getD line #[]).toList = placesOn line moves := by
    simp [ofMoves, getD_enterLine, placesOn]
  simp only [movesOnLine, hcheck, hplaces]
  rfl

theorem lineOf_ofMoves_ok {i line : Nat} :
    (ofMoves generation moves).lineOf live i = .ok line ↔ ∃ m, moves[i]? = some m ∧ m.line = line := by
  simp only [lineOf, bind_eq_ok_iff, moveAt_ofMoves_ok hlive]
  exact exists_congr fun m => and_congr_right fun _ => ⟨Except.ok.inj, congrArg _⟩

section Ids

variable (hids : (moves.map Move.id).Nodup)
include hids

theorem indexOf_ofMoves_ok {id : MoveId} {i : Nat} :
    (ofMoves generation moves).indexOf live id = .ok i ↔ ∃ m, moves[i]? = some m ∧ m.id = id := by
  have hcheck : (ofMoves generation moves).check live = .ok () := check_of_eq hlive
  rw [← byId_eq_some_iff generation hids]
  simp only [indexOf, hcheck]
  cases (ofMoves generation moves).byId[id]? with
  | none => constructor <;> intro h <;> cases h
  | some j => exact ⟨fun h => congrArg some (Except.ok.inj h), fun h => congrArg _ (Option.some.inj h)⟩

theorem indexOf_ofMoves_unknown {id : MoveId} :
    (ofMoves generation moves).indexOf live id = .error (.unknownMove id) ↔ ∀ m ∈ moves, m.id ≠ id := by
  have hcheck : (ofMoves generation moves).check live = .ok () := check_of_eq hlive
  have hnone : (ofMoves generation moves).byId[id]? = none ↔ ∀ m ∈ moves, m.id ≠ id := by
    rw [Option.eq_none_iff_forall_ne_some]
    simp only [ne_eq, byId_eq_some_iff generation hids, not_exists, not_and]
    constructor
    · intro h m hm
      obtain ⟨i, hi⟩ := List.mem_iff_getElem?.mp hm
      exact h i m hi
    · intro h i m hm
      exact h m (List.mem_of_getElem? hm)
  rw [← hnone]
  simp only [indexOf, hcheck]
  cases (ofMoves generation moves).byId[id]? with
  | none => exact iff_of_true rfl rfl
  | some j => constructor <;> intro h <;> cases h

/-- **The tables of a course are exact** while they are fresh, if its moves have different identifiers. -/
theorem exact_ofMoves : (ofMoves generation moves).Exact live moves where
  moveAt_ok i m := moveAt_ofMoves_ok hlive
  moveAt_outOfRange i := moveAt_ofMoves_outOfRange hlive
  indexOf_ok id i := indexOf_ofMoves_ok hlive hids
  indexOf_unknown id := indexOf_ofMoves_unknown hlive hids
  moveAt_indexOf id m := by
    simp only [bind_eq_ok_iff, indexOf_ofMoves_ok hlive hids, moveAt_ofMoves_ok hlive]
    constructor
    · rintro ⟨i, ⟨n, hn, hid⟩, hm⟩
      cases hn.symm.trans hm
      exact ⟨List.mem_of_getElem? hm, hid⟩
    · rintro ⟨hm, hid⟩
      obtain ⟨i, hi⟩ := List.mem_iff_getElem?.mp hm
      exact ⟨i, ⟨m, hi, hid⟩, hi⟩
  indexOf_moveAt i j := by
    simp only [bind_eq_ok_iff, indexOf_ofMoves_ok hlive hids, moveAt_ofMoves_ok hlive]
    constructor
    · rintro ⟨m, hm, n, hn, hid⟩
      exact ⟨(List.getElem?_eq_some_iff.mp hm).1, place_unique hids hn hm hid⟩
    · rintro ⟨hi, rfl⟩
      exact ⟨_, List.getElem?_eq_getElem hi, _, List.getElem?_eq_getElem hi, rfl⟩
  movesOnLine_ok line :=
    ⟨placesOn line moves, movesOnLine_ofMoves hlive line, pairwise_placesOn line moves, fun _ => mem_placesOn⟩
  lineOf_ok i line := lineOf_ofMoves_ok hlive
  one_line i hi := by
    refine ⟨moves[i].line, (lineOf_ofMoves_ok hlive).mpr ⟨_, List.getElem?_eq_getElem hi, rfl⟩, ?_⟩
    intro other places hplaces
    rw [movesOnLine_ofMoves hlive] at hplaces
    rw [← Except.ok.inj hplaces, mem_placesOn, List.getElem?_eq_getElem hi]
    simp [eq_comm]

end Ids

end Fresh

end Tables

/-- **Look-ups are exact.** As long as the tables of a course are not stale, and its moves have different
identifiers, they know as much as the course. The moves of one line of a program are moreover
consecutive. -/
theorem lookups_exact (generation live : Nat) (moves : List Move)
    (hfresh : (ofMoves generation moves).isStale live = false) (hids : (moves.map Move.id).Nodup) :
    (ofMoves generation moves).Exact live moves ∧
      ∀ setup mint seen program timeline, Timeline.run setup mint seen program = .ok timeline →
        timeline.moves = moves →
        ∀ line, ∃ first count,
          (ofMoves generation moves).movesOnLine live line = .ok (List.range' first count) := by
  have hlive : live = generation := Decidable.not_not.mp (of_decide_eq_false hfresh)
  refine ⟨exact_ofMoves hlive hids, ?_⟩
  intro setup mint seen program timeline hrun hmoves line
  have hsorted : (moves.map Move.line).Pairwise (· ≤ ·) := by
    rw [← hmoves, Timeline.run_ok hrun]
    exact (Timeline.entriesFrom_sorted setup _ 0 program.lines).sublist
      (Timeline.ofLines_sublist setup mint program.lines)
  obtain ⟨first, count, hplaces⟩ := placesOn_eq_range' hsorted line
  exact ⟨first, count, hplaces ▸ movesOnLine_ofMoves hlive line⟩

/-- A program whose second line commands two of its four moves. -/
theorem lookups_exact_of_shared_line :
    let program : Program := ⟨"part.nc", "G0 X1\nG0 X2 G1 X3\nG0 Y1"⟩
    let moves := (Timeline.ofLines {} (MoveId.mint 1) program.lines).moves
    (moves.map Move.line = [0, 1, 1, 2] ∧ (moves.map Move.id).Nodup ∧
        (ofMoves 1 moves).isStale 1 = false) ∧
      (ofMoves 1 moves).Exact 1 moves ∧
      ∃ first count, (ofMoves 1 moves).movesOnLine 1 1 = .ok (List.range' first count) := by
  intro program moves
  have hlines : moves.map Move.line = [0, 1, 1, 2] := by decide +kernel
  have hids : (moves.map Move.id).Nodup := by decide +kernel
  have hfresh : (ofMoves 1 moves).isStale 1 = false := rfl
  obtain ⟨hexact, hrun⟩ := lookups_exact 1 1 moves hfresh hids
  exact ⟨⟨hlines, hids, hfresh⟩, hexact, hrun {} _ _ program _ (Timeline.run_unset _ _ _) rfl 1⟩

end SelectionIndex

end Toolpath
