import Toolpath.Proofs.Session.Following

/-!
# Re-entrant publishing

`EventBus.publish` calls its handlers while it runs, and a handler may publish in turn. `Step.announce
n` serves a session with at most `n` reactions to come, so that this recursion ends. The bound does not
show: with more reactions allowed for, the same is done.

* `Step.Agree n m m'`: two steps do the same in every session with at most `n` reactions to come.
* `Step.announce_agree`: a greater bound changes nothing.
* `Step.publish_eq`: publishing is one delivery to listeners that publish by the same operation.
-/

namespace Toolpath

namespace Step

variable {α β : Type} {k n : Nat}

/-- A reaction that is triggered is to come no longer once it is disarmed. -/
theorem length_disarm_lt {s : Session} {id : Nat} {e : Event} {found : Reaction}
    (h : s.triggered? id e = some found) : (s.disarm id).armed.length < s.armed.length := by
  have hid : found.id = id := by
    have := List.find?_some h
    simp only [Bool.and_eq_true, decide_eq_true_eq] at this
    exact this.1
  exact List.length_filter_lt_length_iff_exists.mpr ⟨found, List.mem_of_find?_eq_some h, by simp [hid]⟩

/-- Two steps do the same in every session with at most `n` reactions to come, and arm none. -/
def Agree (n : Nat) (m m' : Step α) : Prop :=
  ∀ s : Session, s.armed.length ≤ n →
    m.run s = m'.run s ∧ (m.run s).2.armed.length ≤ s.armed.length

namespace Agree

theorem mono {m m' : Step α} (h : Agree n m m') (hk : k ≤ n) : Agree k m m' :=
  fun s hs => h s (Nat.le_trans hs hk)

/-- A step that agrees with some other one arms nothing. -/
theorem left {m m' : Step α} (h : Agree n m m') : Agree n m m := fun s hs => ⟨rfl, (h s hs).2⟩

theorem trans {l m r : Step α} (h : Agree n l m) (h' : Agree n m r) : Agree n l r := by
  intro s hs
  obtain ⟨heq, hle⟩ := h s hs
  exact ⟨heq.trans (h' s hs).1, hle⟩

theorem pure (a : α) : Agree n (pure a) (pure a) := fun _ _ => ⟨rfl, Nat.le_refl _⟩

theorem throw (e : Interrupted) : Agree (α := α) n (throw e) (throw e) := fun _ _ => ⟨rfl, Nat.le_refl _⟩

theorem modify {f : Session → Session} (hf : ∀ s, (f s).armed.length ≤ s.armed.length) :
    Agree n (modify f) (modify f) := fun s _ => ⟨rfl, hf s⟩

theorem bind {m m' : Step β} {f f' : β → Step α} (hm : Agree n m m') (hf : ∀ b, Agree n (f b) (f' b)) :
    Agree n (m >>= f) (m' >>= f') := by
  intro s hs
  obtain ⟨heq, hle⟩ := hm s hs
  match h : m.run s with
  | (.ok b, t) =>
    rw [h] at heq hle
    obtain ⟨heq', hle'⟩ := hf b t (Nat.le_trans hle hs)
    rw [run_bind_ok h, run_bind_ok heq.symm]
    exact ⟨heq', Nat.le_trans hle' hle⟩
  | (.error e, t) =>
    rw [h] at heq hle
    rw [run_bind_error h, run_bind_error heq.symm]
    exact ⟨rfl, hle⟩

/-- Steps that look at the session first. -/
theorem get_bind {f f' : Session → Step α} (hf : ∀ x, Agree n (f x) (f' x)) :
    Agree n (get >>= f) (get >>= f') :=
  bind (fun _ _ => ⟨rfl, Nat.le_refl _⟩) hf

theorem discard {m m' : Step α} (h : Agree n m m') : Agree n (discard m) (discard m') :=
  bind h fun _ => pure _

theorem forM {f f' : β → Step PUnit} (hf : ∀ x, Agree n (f x) (f' x)) (xs : List β) :
    Agree n (xs.forM f) (xs.forM f') := by
  induction xs with
  | nil => exact pure _
  | cons x xs ih => exact bind (hf x) fun _ => ih

end Agree

/-! ## What publishes an event -/

section Publisher

variable {tell tell' : Publisher} (ht : ∀ e, Agree n (tell e) (tell' e))

include ht

theorem inSection_agree (act : Job → Section α) : Agree n (inSection tell act) (inSection tell' act) := by
  refine .get_bind fun s => .bind (.modify fun _ => Nat.le_refl _) fun _ => ?_
  dsimp only
  cases (act s.job).announces with
  | none => exact .pure _
  | some e => exact .bind (ht e) fun _ => .pure _

theorem execute_agree (run : Run) : Agree n (execute tell run) (execute tell' run) := by
  refine .bind (inSection_agree ht _) fun started => ?_
  cases started with
  | error cause => exact .pure _
  | ok _ => exact .get_bind fun _ => inSection_agree ht _

theorem load_agree (program : Program) : Agree n (load tell program) (load tell' program) :=
  .bind (inSection_agree ht _) fun run => execute_agree ht run

theorem reload_agree : Agree n (reload tell) (reload tell') := by
  refine .get_bind fun s => ?_
  cases s.job.program with
  | none => exact .pure _
  | some program => exact load_agree ht program

theorem selectWith_agree (find : Snapshot → Nat → Except IndexError Move) :
    Agree n (selectWith tell find) (selectWith tell' find) := by
  refine .get_bind fun s => ?_
  dsimp only
  cases s.job.snapshot with
  | none => exact .pure _
  | some snapshot =>
    dsimp only
    cases find snapshot s.job.live with
    | error cause => exact .pure _
    | ok m => exact .bind (ht _) fun _ => .pure _

theorem landOn_agree (id index : Nat) : Agree n (landOn tell id index) (landOn tell' id index) := by
  refine .bind (selectWith_agree ht _) fun selected => ?_
  cases selected with
  | error cause => exact .pure _
  | ok m => exact .bind (.modify fun _ => Nat.le_refl _) fun _ => .pure _

theorem seek_agree (id index : Nat) : Agree n (seek tell id index) (seek tell' id index) := by
  refine .get_bind fun s => ?_
  dsimp only
  split
  · exact .pure _
  · exact landOn_agree ht id index

theorem toggle_agree (id : Nat) : Agree n (toggle tell id) (toggle tell' id) :=
  .get_bind fun _ => .bind (.modify fun _ => Nat.le_refl _) fun _ => .bind (ht _) fun _ => .pure _

theorem pause_agree (id : Nat) : Agree n (pause tell id) (pause tell' id) := by
  refine .get_bind fun s => ?_
  dsimp only
  split
  · exact .bind (.modify fun _ => Nat.le_refl _) fun _ => ht _
  · exact .pure _

theorem perform_agree (deed : Deed) : Agree n (perform tell deed) (perform tell' deed) := by
  cases deed with
  | cancel => exact .discard (inSection_agree ht _)
  | reset => exact inSection_agree ht _
  | reload => exact .discard (reload_agree ht)
  | load program => exact .discard (load_agree ht program)
  | abort => exact .throw _
  | pause id => exact pause_agree ht id
  | toggle id => exact .discard (toggle_agree ht id)
  | seek id index => exact .discard (seek_agree ht id index)

end Publisher

/-- A cursor that follows announces nothing but its range. -/
theorem followUp_agree {tell tell' : Publisher}
    (ht : ∀ maximum, Agree n (tell (.playback (.rangeChanged maximum)))
      (tell' (.playback (.rangeChanged maximum)))) (id : Nat) (e : Event) :
    Agree n (followUp tell id e) (followUp tell' id e) := by
  unfold followUp
  split
  · refine .get_bind fun s => ?_
    split
    · exact .pure _
    · exact .bind (.modify fun _ => Nat.le_refl _) fun _ => ht _
  · exact .pure _

/-! ## Delivering -/

section Deliver

variable {follow follow' : Nat → Publisher} {act act' : Deed → Step Unit} {e : Event}

/-- A reaction is disarmed before it acts, so what it does has to agree only where fewer are to come. -/
theorem call_agree (hf : ∀ id, Agree n (follow id e) (follow' id e))
    (ha : ∀ k < n, ∀ deed, Agree k (act deed) (act' deed)) (l : Listener) :
    Agree n (call follow act e l) (call follow' act' e l) := by
  cases l with
  | journal book => exact .modify fun _ => Nat.le_refl _
  | follow id => exact hf id
  | reaction id =>
    intro s hs
    simp only [call, run_get_bind]
    cases hfound : s.triggered? id e with
    | none => exact ⟨rfl, Nat.le_refl _⟩
    | some found =>
      have hless := length_disarm_lt hfound
      obtain ⟨heq, hle⟩ := ha _ (Nat.lt_of_lt_of_le hless hs) found.deed (s.disarm id) (Nat.le_refl _)
      have hrun : ∀ m : Step Unit,
          (modify (·.disarm id) >>= fun _ => m).run s = m.run (s.disarm id) := fun _ => run_bind_ok rfl
      dsimp only
      rw [hrun, hrun]
      exact ⟨heq, Nat.le_trans hle (Nat.le_of_lt hless)⟩

theorem deliver_agree (hf : ∀ id, Agree n (follow id e) (follow' id e))
    (ha : ∀ k < n, ∀ deed, Agree k (act deed) (act' deed)) :
    Agree n (deliver follow act e) (deliver follow' act' e) :=
  .bind (.modify fun _ => Nat.le_refl _) fun _ => .get_bind fun _ =>
    .bind (.forM (call_agree hf ha) _) fun _ =>
      .bind (.modify fun _ => Nat.le_refl _) fun _ => .get_bind fun _ => .pure _

theorem deliverAll_agree (ha : ∀ k < n, ∀ deed, Agree k (act deed) (act' deed)) :
    Agree n (deliverAll act e) (deliverAll act' e) := by
  refine deliver_agree (fun id => followUp_agree (fun inner => .discard ?_) id e) ha
  exact deliver_agree (fun _ => .pure _) ha

end Deliver

/-! ## Publishing -/

/-- One reaction more than there are to come may be allowed for. -/
theorem announce_agree_succ (n : Nat) (e : Event) : Agree n (announce n e) (announce (n + 1) e) := by
  induction n generalizing e with
  | zero => exact deliverAll_agree fun k hk => absurd hk (Nat.not_lt_zero k)
  | succ n ih =>
    refine deliverAll_agree fun k hk deed => perform_agree (fun inner => .discard ?_) deed
    exact (ih inner).mono (Nat.le_of_lt_succ hk)

/-- A greater bound on the reactions changes nothing. -/
theorem announce_agree (e : Event) (h : k ≤ n) : Agree k (announce k e) (announce n e) := by
  induction h with
  | refl => exact (announce_agree_succ k e).left
  | step h ih => exact ih.trans ((announce_agree_succ _ e).mono h)

theorem publish_agree (e : Event) (h : k ≤ n) : Agree k (announce n e) (publish e) := by
  intro s hs
  obtain ⟨heq, hle⟩ := announce_agree e (Nat.le_trans hs h) s (Nat.le_refl _)
  rw [publish, run_get_bind, heq]
  exact ⟨rfl, heq ▸ hle⟩

/-- With a bound on the reactions, what they do is done by the operation that publishes an event. -/
theorem announce_agree_deliver (n : Nat) (e : Event) :
    Agree n (announce n e) (deliver (followUp tell) (perform tell) e) := by
  obtain ⟨act, hact, ha⟩ : ∃ act, (∀ e, announce n e = deliverAll act e) ∧
      ∀ k < n, ∀ deed, Agree k (act deed) (perform tell deed) := by
    cases n with
    | zero => exact ⟨_, fun _ => rfl, fun k hk => absurd hk (Nat.not_lt_zero k)⟩
    | succ n =>
      refine ⟨_, fun _ => rfl, fun k hk deed => perform_agree (fun inner => .discard ?_) deed⟩
      exact publish_agree inner (Nat.le_of_lt_succ hk)
  -- no cursor follows a range, so it is announced to the same listeners as any other event
  have hrange : ∀ maximum, Agree n
      (deliver (fun _ _ => pure ()) act (.playback (.rangeChanged maximum)))
      (publish (.playback (.rangeChanged maximum))) := by
    intro maximum
    refine .trans ?_ (publish_agree _ (Nat.le_refl n))
    rw [hact]
    refine deliver_agree (fun id => ?_) fun k hk deed => (ha k hk deed).left
    rw [followUp_of_not_finish _ id rfl]
    exact .pure _
  rw [hact]
  exact deliver_agree (fun id => followUp_agree (fun maximum => .discard (hrange maximum)) id e) ha

/-- **Publishing** is one delivery to listeners that publish by the same operation, however deep this nests. -/
theorem publish_eq (s : Session) (e : Event) :
    (publish e).run s = (deliver (followUp tell) (perform tell) e).run s :=
  ((publish_agree e (Nat.le_refl s.armed.length)) s (Nat.le_refl _)).1.symm.trans
    (announce_agree_deliver s.armed.length e s (Nat.le_refl _)).1

end Step

end Toolpath
