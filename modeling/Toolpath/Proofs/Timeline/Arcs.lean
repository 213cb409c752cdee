import Toolpath.Proofs.Record.Written
import Toolpath.Proofs.Timeline.Range

/-!
# Arcs that overflow

An end point that overflows is refused, and so is an axis offset. A center that overflows is not: in one
form of an arc the radii at both ends are infinite then, their difference is no number, and no
comparison with it refuses the arc; in the other nothing is compared with the center. So a program may
hold arcs that cannot be used, and its moves do not read back from their text. This happens exactly if
the radius of an arc is not finite.

`serde_json` does not read every finite double as the one it wrote (`Json.reread`): it multiplies or
divides the digits by a power of ten, and rounds each of them. So a course that is read from its text is
the one that was written up to the last digits of its numbers.

* `Timeline.RadiusDecides`, `Timeline.run_radiusDecides`: the arcs that `Simulator.resolve_arc` emits
  over a whole program, and what the text of its moves holds.
* `Timeline.far_arc_overflows`: a program of which a center overflows.
-/

namespace Toolpath

namespace Timeline

/-- The radii of a timeline decide what can be used: all parts of an arc are finite exactly if its radius
is, and the moves, whose places and lines are numbers of 64 bits, are read from their text exactly if all
radii are finite. The tree that the text holds gives the same moves then, and what is read from it are these moves
with each number as `serde_json` reads its digits, which is close to it but need not be the same. -/
structure RadiusDecides (t : Timeline) : Prop where
  usable_iff : ∀ m ∈ t.moves, ∀ a, m.arc = some a → (a.Usable ↔ a.radius.isFinite = true)
  text : Json.pretty (Json.written (movesToValue t.moves)) = Json.pretty (movesToValue t.moves)
  read : (∀ m ∈ t.moves, m.index < Number.twoTo 64 ∧ m.line < Number.twoTo 64) →
    movesOfValue? .json (Json.written (movesToValue t.moves)) =
      if t.moves.all Move.hasFiniteRadius then some t.moves else none
  readText : (∀ m ∈ t.moves, m.index < Number.twoTo 64 ∧ m.line < Number.twoTo 64) →
    (Json.read? (Json.pretty (movesToValue t.moves))).bind (movesOfValue? .json) =
      if t.moves.all Move.hasFiniteRadius then some (t.moves.map (Move.mapNumbers Json.reread)) else none

theorem ofLines_radiusDecides (setup : Setup) (mint : Nat → MoveId) (lines : List String) :
    (ofLines setup mint lines).RadiusDecides := by
  obtain ⟨-, hmoves⟩ := ofLines_keeps (Machine.inRange_keeps setup) (Machine.inRange_ofSetup setup)
    mint lines
  exact
    { usable_iff := fun m hm => (hmoves m hm).arc
      text := Json.pretty_written _
      read := movesOfValue?_written .json hmoves
      readText := movesOfValue?_read? .json hmoves }

/-- **Arcs that can be used.** -/
theorem run_radiusDecides (setup : Setup) (mint : Nat → MoveId) (program : Program) :
    ∃ t, run setup mint (fun _ => false) program = .ok t ∧ t.RadiusDecides :=
  ⟨_, run_unset setup mint program, ofLines_radiusDecides setup mint program.lines⟩

/-- A setup with an origin far away, which the machine accepts. -/
def farSetup : Setup := { workOffsets := { g54 := .linear 1e308 0 0 } }

/-- The sum of two far points overflows, and so do the center and the radius of an arc between them. It
is carried out all the same, nothing is noted, and the moves do not read back. -/
theorem far_arc_overflows :
    farSetup.problem? = none ∧
      ∃ t, run farSetup (MoveId.mint 1) (fun _ => false) ⟨"part.nc", "G0 X0\nG2 Y1 R1"⟩ = .ok t ∧
        t.diagnostics = [] ∧
        (∃ m ∈ t.moves, ∃ a, m.arc = some a ∧ a.center.isFinite = false ∧ a.radius.isFinite = false) ∧
        movesOfValue? .json (Json.written (movesToValue t.moves)) = none ∧
        (Json.read? (Json.pretty (movesToValue t.moves))).bind (movesOfValue? .json) = none := by
  have harc : (ofLines farSetup (MoveId.mint 1)
      (Program.mk "part.nc" "G0 X0\nG2 Y1 R1").lines).moves.any (fun m =>
        m.arc.any fun a => !a.center.isFinite && !a.radius.isFinite) = true := by
    decide +kernel
  have hdecides := ofLines_radiusDecides farSetup (MoveId.mint 1)
    (Program.mk "part.nc" "G0 X0\nG2 Y1 R1").lines
  have hwords : ∀ m ∈ (ofLines farSetup (MoveId.mint 1)
      (Program.mk "part.nc" "G0 X0\nG2 Y1 R1").lines).moves,
      m.index < Number.twoTo 64 ∧ m.line < Number.twoTo 64 := by
    decide +kernel
  have hradius : ¬ (ofLines farSetup (MoveId.mint 1)
      (Program.mk "part.nc" "G0 X0\nG2 Y1 R1").lines).moves.all Move.hasFiniteRadius = true := by
    decide +kernel
  refine ⟨by decide +kernel, _, run_unset _ _ _, by decide +kernel, ?_, ?_, ?_⟩
  · obtain ⟨m, hm, ha⟩ := List.any_eq_true.mp harc
    obtain ⟨a, ha, hb⟩ := (Option.any_eq_true _ _).mp ha
    simp only [Bool.and_eq_true, Bool.not_eq_true'] at hb
    exact ⟨m, hm, a, ha, hb⟩
  · rw [hdecides.read hwords, if_neg hradius]
  · rw [hdecides.readText hwords, if_neg hradius]

end Timeline

end Toolpath
