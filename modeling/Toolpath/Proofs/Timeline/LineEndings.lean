import Toolpath.Proofs.Timeline.Continuation

/-!
# Line endings

A line ends with a line feed, and a carriage return right before it belongs to the ending. So a text
says the same whichever of the two endings each of its lines has.

* `Text.splitOn_eq`, `Text.length_splitOn`: cutting a text at a character.
* `Program.joined`, `Program.lines_joined`: a text with endings of both kinds has the lines that were joined.
* `dropReturns`, `Program.intercalate_lines`: joining the lines of a text drops the returns of its endings.
* `Timeline.run_joined`: the course of a text does not depend on its line endings.
-/

namespace Toolpath

/-! ## Cutting texts -/

namespace Text

theorem splitOn_eq (mark : Char) (s : List Char) : splitOn mark s = s.splitOn mark := by
  induction s with
  | nil => rfl
  | cons c s ih =>
    rw [List.splitOn, List.splitOnP_cons_eq_if_modifyHead, ← List.splitOn, ← ih]
    by_cases hc : c = mark
    · rw [hc, splitOn_mark, if_pos (beq_self_eq_true mark)]
    · obtain ⟨piece, rest, hs⟩ := List.exists_cons_of_ne_nil (splitOn_ne_nil mark s)
      rw [splitOn_cons_of_ne hc hs, hs, if_neg (by simpa using hc)]
      rfl

/-- There is one piece more than there are marks. -/
theorem length_splitOn (mark : Char) (s : List Char) : (splitOn mark s).length = s.count mark + 1 := by
  induction s with
  | nil => rfl
  | cons c s ih =>
    by_cases hc : c = mark
    · rw [hc, splitOn_mark, List.length_cons, ih, List.count_cons_self]
    · obtain ⟨piece, rest, hs⟩ := List.exists_cons_of_ne_nil (splitOn_ne_nil mark s)
      rw [splitOn_cons_of_ne hc hs, List.length_cons, List.count_cons_of_ne hc, ← ih, hs, List.length_cons]

/-- A character of the first piece comes first in the joined text. -/
theorem intercalate_cons (sep : List Char) (c : Char) (piece : List Char) (rest : List (List Char)) :
    sep.intercalate ((c :: piece) :: rest) = c :: sep.intercalate (piece :: rest) := by
  cases rest with
  | nil => rw [List.intercalate_singleton, List.intercalate_singleton]
  | cons next rest =>
    rw [List.intercalate_cons_cons, List.intercalate_cons_cons, List.cons_append, List.cons_append]

/-- The first piece is empty exactly if the text is, or begins with the mark. -/
theorem piece_eq_nil_iff {mark : Char} {s piece : List Char} {rest : List (List Char)}
    (h : splitOn mark s = piece :: rest) : piece = [] ↔ s = [] ∨ s.head? = some mark := by
  cases s with
  | nil =>
    cases h
    simp
  | cons c s =>
    by_cases hc : c = mark
    · rw [hc, splitOn_mark] at h
      cases h
      simp [hc]
    · obtain ⟨piece', rest', hs⟩ := List.exists_cons_of_ne_nil (splitOn_ne_nil mark s)
      rw [splitOn_cons_of_ne hc hs] at h
      cases h
      simp [hc]

end Text

/-! ## Returns -/

/-- A text without the carriage returns of its line endings: one before each line feed, and one at the
end. -/
def dropReturns : List Char → List Char
  | [] => []
  | c :: s => if c = '\r' ∧ (s = [] ∨ s.head? = some '\n') then dropReturns s else c :: dropReturns s

theorem dropReturn_cons (c : Char) {line : List Char} (h : line ≠ []) :
    dropReturn (c :: line) = c :: dropReturn line := by
  unfold dropReturn
  rw [List.getLast?_cons_of_ne_nil h, List.dropLast_cons_of_ne_nil h]
  split <;> rfl

theorem dropReturn_singleton (c : Char) : dropReturn [c] = if c = '\r' then [] else [c] := by
  simp [dropReturn]

/-- A line keeps all but one carriage return. -/
theorem dropReturn_concat (line : List Char) : dropReturn (line ++ ['\r']) = line := by
  simp [dropReturn]

theorem dropReturn_of_ne {line : List Char} (h : line.getLast? ≠ some '\r') : dropReturn line = line :=
  if_neg h

/-- Dropping the return of each line drops all returns of the line endings. -/
theorem intercalate_dropReturn (s : List Char) :
    ['\n'].intercalate ((Text.splitOn '\n' s).map dropReturn) = dropReturns s := by
  induction s with
  | nil => rfl
  | cons c s ih =>
    obtain ⟨piece, rest, hs⟩ := List.exists_cons_of_ne_nil (Text.splitOn_ne_nil '\n' s)
    by_cases hc : c = '\n'
    · have hne : (Text.splitOn '\n' s).map dropReturn ≠ [] := by simp [hs]
      rw [hc, Text.splitOn_mark, List.map_cons, List.intercalate_cons_of_ne_nil hne, ih, dropReturns,
        if_neg (fun h => absurd h.1 (by decide))]
      rfl
    · have hpiece := Text.piece_eq_nil_iff hs
      rw [hs, List.map_cons] at ih
      rw [Text.splitOn_cons_of_ne hc hs, List.map_cons, dropReturns]
      by_cases hp : piece = []
      · -- the character ends its line
        rw [← ih, hp, dropReturn_singleton]
        by_cases hr : c = '\r'
        · rw [if_pos hr, if_pos ⟨hr, hpiece.mp hp⟩]
          rfl
        · rw [if_neg hr, if_neg (fun h => hr h.1), Text.intercalate_cons]
          rfl
      · rw [dropReturn_cons c hp, if_neg (fun h => hp (hpiece.mpr h.2)), Text.intercalate_cons, ih]

/-! ## Texts with line endings of both kinds -/

namespace Program

/-- A line as it is written before its line feed, with a carriage return or without one. -/
def ended (line : String × Bool) : String := if line.2 then line.1 ++ "\r" else line.1

/-- The text of lines that end as they tell; the last one has no line feed. -/
def joined (lines : List (String × Bool)) : String := "\n".intercalate (lines.map ended)

/-- A line that no ending is part of. -/
structure IsLine (line : String) : Prop where
  not_mem : '\n' ∉ line.toList
  getLast?_ne : line.toList.getLast? ≠ some '\r'

theorem not_mem_ended {line : String × Bool} (h : IsLine line.1) : '\n' ∉ (ended line).toList := by
  unfold ended
  split
  · simpa using h.not_mem
  · exact h.not_mem

theorem dropReturn_ended {line : String × Bool} (h : IsLine line.1) :
    dropReturn (ended line).toList = line.1.toList := by
  unfold ended
  split
  · rw [String.toList_append]
    exact dropReturn_concat _
  · exact dropReturn_of_ne h.getLast?_ne

/-- **The lines of a joined text** are those that were joined. -/
theorem lines_joined (name : String) {lines : List (String × Bool)} (hne : lines ≠ [])
    (h : ∀ line ∈ lines, IsLine line.1) : (Program.mk name (joined lines)).lines = lines.map Prod.fst := by
  have hsplit : Text.splitOn '\n' (joined lines).toList = (lines.map ended).map String.toList := by
    rw [Text.splitOn_eq, joined, String.toList_intercalate]
    refine List.splitOn_intercalate '\n' ?_ (by simpa using hne)
    simp only [List.mem_map]
    rintro _ ⟨_, ⟨line, hl, rfl⟩, rfl⟩
    exact not_mem_ended (h line hl)
  rw [Program.lines, hsplit, List.map_map, List.map_map]
  refine List.map_congr_left fun line hl => ?_
  rw [Function.comp_apply, Function.comp_apply, dropReturn_ended (h line hl), String.ofList_toList]

theorem lineCount_eq (p : Program) : p.lineCount = p.text.toList.count '\n' + 1 := by
  rw [lineCount, lines, List.length_map, Text.length_splitOn]

/-- Joining the lines of a text drops the returns of its endings. -/
theorem intercalate_lines (p : Program) :
    "\n".intercalate p.lines = String.ofList (dropReturns p.text.toList) := by
  rw [← String.toList_inj, String.toList_ofList, String.toList_intercalate, ← intercalate_dropReturn, lines,
    List.map_map]
  congr 1
  refine List.map_congr_left fun line _ => ?_
  exact String.toList_ofList

end Program

namespace Timeline

/-- The course of a text, identifiers aside. -/
def unnamed (t : Timeline) : List (Nat × Nat × Motion) × List Diagnostic × Machine :=
  (t.moves.map Move.unnamed, t.diagnostics, t.final)

theorem unnamed_ofLines (setup : Setup) (mint mint' : Nat → MoveId) (lines : List String) :
    (ofLines setup mint lines).unnamed = (ofLines setup mint' lines).unnamed := by
  simp only [unnamed, ofLines, movesOf_unnamed]

/-- **Line endings do not matter.** Lines that are joined with an ending of either kind at each joint are the lines
of the text, and their course is the same for all choices. Conversely, every text has one line more than
it has line feeds, and its joined lines are the text without the returns of its endings. -/
theorem run_joined :
    (∀ lines : List (String × Bool), lines ≠ [] → (∀ line ∈ lines, Program.IsLine line.1) →
      (∀ name, (Program.mk name (Program.joined lines)).lines = lines.map Prod.fst) ∧
      ∀ (others : List (String × Bool)), others.map Prod.fst = lines.map Prod.fst →
        ∀ (setup : Setup) (mint mint' : Nat → MoveId) (name name' : String),
          ∃ course course' : Timeline,
            run setup mint (fun _ => false) ⟨name, Program.joined lines⟩ = .ok course ∧
            run setup mint' (fun _ => false) ⟨name', Program.joined others⟩ = .ok course' ∧
            course.unnamed = course'.unnamed) ∧
    ∀ p : Program, p.lineCount = p.text.toList.count '\n' + 1 ∧
      "\n".intercalate p.lines = String.ofList (dropReturns p.text.toList) := by
  refine ⟨fun lines hne h => ⟨fun name => Program.lines_joined name hne h, ?_⟩,
    fun p => ⟨p.lineCount_eq, p.intercalate_lines⟩⟩
  intro others hothers setup mint mint' name name'
  have hne' : others ≠ [] := by
    rintro rfl
    exact hne (List.map_eq_nil_iff.mp hothers.symm)
  have h' : ∀ line ∈ others, Program.IsLine line.1 := by
    intro line hl
    have hmem : line.1 ∈ lines.map Prod.fst := hothers ▸ List.mem_map_of_mem hl
    obtain ⟨same, hsame, heq⟩ := List.mem_map.mp hmem
    exact heq ▸ h same hsame
  refine ⟨_, _, run_unset setup mint _, run_unset setup mint' _, ?_⟩
  rw [Program.lines_joined name hne h, Program.lines_joined name' hne' h', hothers]
  exact unnamed_ofLines setup mint mint' _

/-- Three lines, the second of which is empty, with endings of both kinds and then the other way round. -/
theorem run_exchanged_endings :
    (Program.mk "part.nc" "G1 X1\r\n\nX5\r").lines = ["G1 X1", "", "X5"] ∧
    ∃ course course' : Timeline,
      run {} (MoveId.mint 1) (fun _ => false) ⟨"part.nc", "G1 X1\r\n\nX5\r"⟩ = .ok course ∧
      run {} (MoveId.mint 2) (fun _ => false) ⟨"part.nc", "G1 X1\n\r\nX5"⟩ = .ok course' ∧
      course.unnamed = course'.unnamed := by
  have hlines : ∀ line ∈ [("G1 X1", true), ("", false), ("X5", true)], Program.IsLine line.1 := by
    simp only [List.forall_mem_cons]
    exact ⟨⟨by decide, by decide⟩, ⟨by decide, by decide⟩, ⟨by decide, by decide⟩, by simp⟩
  obtain ⟨h, hruns⟩ := run_joined.1 _ (by simp) hlines
  exact ⟨h "part.nc", hruns [("G1 X1", false), ("", true), ("X5", false)] rfl {} _ _ "part.nc" "part.nc"⟩

end Timeline

end Toolpath
