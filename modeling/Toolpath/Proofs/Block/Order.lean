import Toolpath.Proofs.Block.Edit

/-!
# The order of words on a line

Two neighbouring items that concern different slots of a draft may change places: the line says the
same, and only their own problems, if there are any, change places too.

* `Draft.step_comm`, `Draft.refusal?_step`: such items do not see each other.
* `Block.ofTokens_swap`: the block of a line.
-/

namespace Toolpath

namespace Draft

variable (d : Draft) {a b : Token}

/-- Whether an item is refused depends on its slot alone. -/
theorem refusal?_step (h : a.slot ≠ b.slot) : (d.step a).refusal? b = d.refusal? b := by
  rw [refusal?, d.content_step_ne (Ne.symm h), refusal?]

theorem content_step_step (h : a.slot ≠ b.slot) :
    ((d.step a).step b).content a.slot = (d.step a).content a.slot ∧
      ((d.step b).step a).content a.slot = (d.step a).content a.slot := by
  refine ⟨(d.step a).content_step_ne h, ?_⟩
  rw [content_step_self, content_step_self, d.content_step_ne h]

/-- **Items of different slots commute.** -/
theorem step_comm (h : a.slot ≠ b.slot) : (d.step a).step b = (d.step b).step a := by
  refine ext_content fun slot => ?_
  by_cases ha : slot = a.slot
  · subst ha
    obtain ⟨hab, hba⟩ := d.content_step_step h
    rw [hab, hba]
  · by_cases hb : slot = b.slot
    · subst hb
      obtain ⟨hba, hab⟩ := d.content_step_step (Ne.symm h)
      rw [hab, hba]
    · -- a slot of neither item
      rw [content_step_ne _ hb, content_step_ne _ ha, content_step_ne _ ha, content_step_ne _ hb]

/-- Two neighbours of different slots are refused as if each of them stood alone. -/
theorem pushAll_pair (before after : List Token) (h : a.slot ≠ b.slot) :
    let middle := (d.pushAll before).1
    let last := ((middle.step a).step b).pushAll after
    d.pushAll (before ++ [a, b] ++ after) =
      (last.1, (d.pushAll before).2 ++
        ((middle.refusal? a).toList ++ (middle.refusal? b).toList) ++ last.2) := by
  dsimp only
  rw [List.append_assoc, pushAll_append, List.cons_append, List.singleton_append, pushAll_cons,
    pushAll_cons, refusal?_step _ h, List.append_assoc, List.append_assoc]

end Draft

namespace Block

/-- The problem with an item that follows others on a line, if it is refused. -/
def refusal? (line : Nat) (mode : MotionKind) (before : List Token) (item : Token) : Option Diagnostic :=
  match (Draft.pushAll { motionMode := mode } before).1.push item with
  | .ok _ => none
  | .error cause => some (.onLine line (.block cause))

/-- Two blocks that say the same, up to the order of two neighbouring problems. -/
structure Swapped (b b' : Block) (first second : Option Diagnostic) : Prop where
  line : b'.line = b.line
  number : b'.number = b.number
  commands : b'.commands = b.commands
  diagnostics : ∃ front back,
    b.diagnostics = front ++ first.toList ++ second.toList ++ back ∧
      b'.diagnostics = front ++ second.toList ++ first.toList ++ back

theorem refusal?_eq (line : Nat) (mode : MotionKind) (before : List Token) (item : Token) :
    refusal? line mode before item =
      ((Draft.pushAll { motionMode := mode } before).1.refusal? item).map fun cause =>
        .onLine line (.block cause) := by
  rw [refusal?, Draft.push_eq]
  cases (Draft.pushAll { motionMode := mode } before).1.refusal? item <;> rfl

/-- **The order of independent words does not matter.** Two neighbouring items of different slots change
places, whatever stands before and after them: commands and block number stay, and so do all problems but
for the order of those two items' own. -/
theorem ofTokens_swap (line : Nat) (mode : MotionKind) (before after : List Token) {a b : Token}
    (h : a.slot ≠ b.slot) :
    Swapped (ofTokens line mode (before ++ [a, b] ++ after)) (ofTokens line mode (before ++ [b, a] ++ after))
      (refusal? line mode before a) (refusal? line mode before b) := by
  have hab := Draft.pushAll_pair { motionMode := mode } before after h
  have hba := Draft.pushAll_pair { motionMode := mode } before after (Ne.symm h)
  dsimp only at hab hba
  rw [← Draft.step_comm _ h] at hba
  unfold ofTokens
  rw [hab, hba, refusal?_eq, refusal?_eq]
  let report : BlockError → Diagnostic := fun cause => .onLine line (.block cause)
  let last := (((Draft.pushAll { motionMode := mode } before).1.step a).step b).pushAll after
  refine ⟨rfl, rfl, rfl, (Draft.pushAll { motionMode := mode } before).2.map report,
    last.2.map report ++ last.1.leftovers.map (.onLine line), ?_, ?_⟩
  all_goals simp [report, last, Function.comp_def, Option.toList_map]

/-- A second feed rate and a negative speed are both refused; their problems change places. -/
theorem swap_refused_words :
    let items (a b : Token) : List Token := [.word 'F' 1 "1" 0, a, b, .word 'X' 1 "1" 10]
    let feed := Token.word 'F' 2 "2" 3
    let speed := Token.word 'S' (-1) "-1" 6
    feed.slot ≠ speed.slot ∧
      Swapped (ofTokens 7 .linear (items feed speed)) (ofTokens 7 .linear (items speed feed))
        (some (.onLine 7 (.block (.duplicateWord 'F'))))
        (some (.onLine 7 (.block (.invalidValue 'S' (-1) "spindle speed cannot be negative")))) := by
  intro items feed speed
  have hslot : feed.slot ≠ speed.slot := by decide
  have hfeed : refusal? 7 .linear [.word 'F' 1 "1" 0] feed =
      some (.onLine 7 (.block (.duplicateWord 'F'))) := by decide +kernel
  have hspeed : refusal? 7 .linear [.word 'F' 1 "1" 0] speed =
      some (.onLine 7 (.block (.invalidValue 'S' (-1) "spindle speed cannot be negative"))) := by
    decide +kernel
  rw [← hfeed, ← hspeed]
  exact ⟨hslot, ofTokens_swap 7 .linear [.word 'F' 1 "1" 0] [.word 'X' 1 "1" 10] hslot⟩

example : ((tokens "N5 G1 X2 F100 M3 G17 P1 M30").map Token.slot) =
    [.blockNumber, .groups, .groups, .feedRate, .machine, .plane, .dwellSeconds, .flow] := by
  decide +kernel

end Block

end Toolpath
