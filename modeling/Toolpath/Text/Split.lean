/-!
# Cutting texts

* `splitOn`: the pieces of a text between the places of a character; there is always at least one.
* `splitOn_append_mark`: pieces of texts that are joined by the character.
-/

namespace Toolpath.Text

/-- The pieces of a text between the places of a character. -/
def splitOn (mark : Char) (s : List Char) : List (List Char) :=
  s.foldr (fun c pieces =>
    if c = mark then [] :: pieces
    else match pieces with
      | [] => [[c]]
      | piece :: rest => (c :: piece) :: rest) [[]]

@[simp] theorem splitOn_nil (mark : Char) : splitOn mark [] = [[]] := rfl

@[simp] theorem splitOn_mark (mark : Char) (s : List Char) :
    splitOn mark (mark :: s) = [] :: splitOn mark s := by
  simp [splitOn]

/-- No text is cut into nothing. -/
theorem splitOn_ne_nil (mark : Char) (s : List Char) : splitOn mark s ≠ [] := by
  cases s with
  | nil => simp
  | cons c s =>
    simp only [splitOn, List.foldr_cons]
    split
    · simp
    · split <;> simp

/-- A character that is not the mark joins the first piece. -/
theorem splitOn_cons_of_ne {mark c : Char} (h : c ≠ mark) {s piece : List Char}
    {rest : List (List Char)} (hs : splitOn mark s = piece :: rest) :
    splitOn mark (c :: s) = (c :: piece) :: rest := by
  rw [splitOn] at hs
  simp only [splitOn, List.foldr_cons, if_neg h, hs]

/-- A text is cut at a mark into the pieces of what stands before it and of what stands after it. -/
theorem splitOn_append_mark (mark : Char) (s t : List Char) :
    splitOn mark (s ++ mark :: t) = splitOn mark s ++ splitOn mark t := by
  induction s with
  | nil => simp
  | cons c s ih =>
    rw [List.cons_append]
    by_cases hc : c = mark
    · subst hc
      rw [splitOn_mark, splitOn_mark, ih, List.cons_append]
    · obtain ⟨piece, rest, hs⟩ := List.exists_cons_of_ne_nil (splitOn_ne_nil mark s)
      rw [splitOn_cons_of_ne hc hs, List.cons_append]
      exact splitOn_cons_of_ne hc (by rw [ih, hs, List.cons_append])

end Toolpath.Text
