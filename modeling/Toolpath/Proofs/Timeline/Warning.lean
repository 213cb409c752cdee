import Toolpath.Proofs.Timeline.Continuation

/-!
# The note on a motion after the program's end

A course notes a motion after the program's end once. Whether it was noted is all that a line needs to
know besides the machine, and all that it changes.

* `emitAll_filter`: a run from another state that emits some of the same.
* `Timeline.entriesFrom_warn`: a course in which the note was made before is the same without it.
* `Timeline.entriesFrom_countP`: the note is made at most once.
-/

namespace Toolpath

/-! ## Courses in which the end was noted -/

section Emit

variable {σ α ε : Type}

/-- If a step from a changed state leads to the changed next state and emits some of what it did, then
so does a run. -/
theorem emitAll_filter {step : σ → α → σ × List ε} (f : σ → σ) (keep : ε → Bool)
    (h : ∀ s x, step (f s) x = (f (step s x).1, (step s x).2.filter keep)) (s : σ) (items : List α) :
    emitAll step (f s) items =
      (f (emitAll step s items).1, (emitAll step s items).2.filter keep) := by
  induction items generalizing s with
  | nil => simp
  | cons x items ih =>
    rw [emitAll_cons, emitAll_cons, h, ih]
    simp

end Emit

/-- The same progress, but a motion after the program's end was noted. -/
def Progress.warn (p : Progress) : Progress := { p with warned := true }

/-- The same progress in a line, but a motion after the program's end was noted. -/
def LineProgress.warn (s : LineProgress) : LineProgress := { s with progress := s.progress.warn }

theorem LineProgress.warn_progress (s : LineProgress) : s.warn.progress = s.progress.warn := rfl

/-- An entry that does not note a motion after the program's end. -/
def Entry.isOther (e : Entry) : Bool := !e.notesEnd

theorem LineProgress.command_warn (setup : Setup) (line : Nat) (s : LineProgress) (action : Action) :
    s.warn.command setup line action =
      ((s.command setup line action).1.warn,
        (s.command setup line action).2.filter Entry.isOther) := by
  have hfirst : s.warn.firstAfterEnd action = false := by
    simp [firstAfterEnd, warn, Progress.warn]
  have hquiet : s.warn.warnings line action = [] := by
    rw [warnings, hfirst]
    rfl
  have hnoted : (s.warnings line action).filter Entry.isOther = [] := by
    unfold warnings
    split <;> rfl
  have hfallback : s.warn.fallback action = s.fallback action := by
    cases action <;> rfl
  cases h : s.progress.machine.apply setup action with
  | ok done =>
    obtain ⟨machine, motion⟩ := done
    have hw : s.warn.progress.machine.apply setup action = .ok (machine, motion) := h
    rw [command_of_ok line h, command_of_ok line hw, hfirst, hquiet, hfallback, List.filter_append,
      hnoted]
    cases motion <;> rfl
  | error cause =>
    have hw : s.warn.progress.machine.apply setup action = .error cause := h
    rw [command_of_error line h, command_of_error line hw, hfirst, hquiet, hfallback,
      List.filter_append, hnoted]
    rfl

theorem Block.diagnostics_isOther (line : Nat) (mode : MotionKind) (text : String) :
    ((Block.ofLine line mode text).diagnostics.map Entry.noted).filter Entry.isOther =
      (Block.ofLine line mode text).diagnostics.map Entry.noted := by
  rw [List.filter_eq_self]
  intro e he
  have hn := List.any_eq_false.mp (Block.diagnostics_notesEnd line mode text) e he
  rw [Entry.isOther, Bool.not_eq_true', Bool.eq_false_iff]
  exact hn

theorem Progress.line_warn (setup : Setup) (p : Progress) (numbered : String × Nat) :
    p.warn.line setup numbered =
      ((p.line setup numbered).1.warn, (p.line setup numbered).2.filter Entry.isOther) := by
  have hc : p.warn.commands setup numbered =
      ((p.commands setup numbered).1.warn, (p.commands setup numbered).2.filter Entry.isOther) := by
    unfold Progress.commands
    exact emitAll_filter LineProgress.warn Entry.isOther
      (LineProgress.command_warn setup numbered.2) { progress := p } _
  have hb : p.warn.machine = p.machine := rfl
  rw [line_eq, line_eq, hc, hb, List.filter_append, Block.diagnostics_isOther, Array.toList_filter,
    LineProgress.warn_progress]

namespace Timeline

/-- A course in which a motion after the program's end was noted does not note one again, and is the
same otherwise. -/
theorem entriesFrom_warn (setup : Setup) (p : Progress) (first : Nat) (lines : List String) :
    entriesFrom setup p.warn first lines =
      ((entriesFrom setup p first lines).1.warn,
        (entriesFrom setup p first lines).2.filter Entry.isOther) := by
  unfold entriesFrom
  exact emitAll_filter Progress.warn Entry.isOther (fun q x => q.line_warn setup x) p _

end Timeline

/-! ## The note is made once -/

theorem LineProgress.command_countP (setup : Setup) (line : Nat) (s : LineProgress) (action : Action) :
    (s.command setup line action).2.countP Entry.notesEnd + s.progress.warned.toNat =
      (s.command setup line action).1.progress.warned.toNat := by
  have hw : (s.warnings line action).countP Entry.notesEnd = (s.firstAfterEnd action).toNat := by
    unfold LineProgress.warnings
    cases s.firstAfterEnd action <;> rfl
  have hm : ∀ motion : Option Motion,
      (motion.toList.map (Entry.moved line)).countP Entry.notesEnd = 0 := by
    intro motion
    cases motion <;> rfl
  -- the first motion after the end is only looked for while none was noted
  have hfirst : (s.firstAfterEnd action).toNat + s.progress.warned.toNat =
      (s.progress.warned || s.firstAfterEnd action).toNat := by
    unfold LineProgress.firstAfterEnd
    cases s.progress.warned <;> simp
  cases h : s.progress.machine.apply setup action with
  | ok done => rw [command_of_ok _ h, List.countP_append, hw, hm, Nat.add_zero, hfirst]
  | error cause =>
    have hn : [Entry.noted (.onLine line (.motion cause))].countP Entry.notesEnd = 0 := rfl
    rw [command_of_error _ h, List.countP_append, hw, hn, Nat.add_zero, hfirst]

/-- Notes of two parts of a course. -/
theorem countP_append_warned {a b c : Bool} {xs ys : List Entry}
    (hx : xs.countP Entry.notesEnd + a.toNat = b.toNat)
    (hy : ys.countP Entry.notesEnd + b.toNat = c.toNat) :
    (xs ++ ys).countP Entry.notesEnd + a.toNat = c.toNat := by
  rw [List.countP_append]
  omega

theorem Progress.line_countP (setup : Setup) (p : Progress) (numbered : String × Nat) :
    (p.line setup numbered).2.countP Entry.notesEnd + p.warned.toNat =
      (p.line setup numbered).1.warned.toNat := by
  have hc : (p.commands setup numbered).2.toList.countP Entry.notesEnd + p.warned.toNat =
      (p.commands setup numbered).1.progress.warned.toNat := by
    unfold Progress.commands
    exact emitAll_rel
      (R := fun (s : LineProgress) (out : List Entry) t =>
        out.countP Entry.notesEnd + s.progress.warned.toNat = t.progress.warned.toNat)
      (fun s => Nat.zero_add _) (fun s xs t ys u => countP_append_warned) _ _
      fun s action _ => s.command_countP setup numbered.2 action
  have hd : ((Block.ofLine numbered.2 p.machine.motionMode numbered.1).diagnostics.map
      Entry.noted).countP Entry.notesEnd = 0 := by
    rw [List.countP_eq_zero]
    exact List.any_eq_false.mp (Block.diagnostics_notesEnd _ _ _)
  rw [line_fst, line_snd, List.countP_append, hd, Nat.zero_add, hc]

/-- A course notes a motion after the program's end at most once, and not if one was noted before. -/
theorem Timeline.entriesFrom_countP (setup : Setup) (p : Progress) (first : Nat) (lines : List String) :
    (entriesFrom setup p first lines).2.toList.countP Entry.notesEnd + p.warned.toNat =
      (entriesFrom setup p first lines).1.warned.toNat := by
  unfold entriesFrom
  exact emitAll_rel
    (R := fun (q : Progress) (out : List Entry) r =>
      out.countP Entry.notesEnd + q.warned.toNat = r.warned.toNat)
    (fun q => Nat.zero_add _) (fun q xs r ys u => countP_append_warned) _ _
    fun q numbered _ => q.line_countP setup numbered

end Toolpath
