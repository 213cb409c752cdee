import Toolpath.Playback

/-!
# Operations on a session, one after another

* `Step.Leads s m Q`: from `s` the step `m` comes to its end, and `Q` holds of its answer and of the
  session it leaves. An interrupted step leads nowhere, so what is proved by `Leads` is never true for
  want of an end. The `leads_` lemmas take a step apart.
* `Step.Takes P R m`: from every session of which `P` holds, `m` leads to one that `R` relates to it. For
  an `R` along which one can go (`Along`) this goes through every way of putting steps together.
* `Operation`: what can be asked of a job, its cursors and its bus. `Operation.performAll` does it in
  order and gives the outcomes.
-/

namespace Toolpath

namespace Step

variable {α β : Type} {s t : Session}

/-- From a session a step comes to its end, and `Q` holds of its answer and of the session it leaves. -/
def Leads (s : Session) (m : Step α) (Q : α → Session → Prop) : Prop :=
  ∃ a t, m.run s = (.ok a, t) ∧ Q a t

/-- Where a step leads can be found by doing it. -/
instance (s : Session) (m : Step α) (Q : α → Session → Prop) [∀ a t, Decidable (Q a t)] :
    Decidable (Leads s m Q) :=
  match h : m.run s with
  | (.ok a, t) => decidable_of_iff (Q a t)
    ⟨fun hq => ⟨a, t, h, hq⟩, fun ⟨_, _, h', hq⟩ => by cases h.symm.trans h'; exact hq⟩
  | (.error _, _) => .isFalse fun ⟨_, _, h', _⟩ => by cases h.symm.trans h'

/-! ## Taking steps apart -/

theorem run_bind_ok {m : Step β} {f : β → Step α} {b : β} (h : m.run s = (.ok b, t)) :
    (m >>= f).run s = (f b).run t := by
  simp only [ExceptT.run_bind]
  show (StateT.bind m.run _ : StateM Session _) s = _
  simp only [StateT.bind, h]
  rfl

theorem run_bind_error {m : Step β} {f : β → Step α} {e : Interrupted}
    (h : m.run s = (.error e, t)) : (m >>= f).run s = (.error e, t) := by
  simp only [ExceptT.run_bind]
  show (StateT.bind m.run _ : StateM Session _) s = _
  simp only [StateT.bind, h]
  rfl

/-- A step that looks at its session first. -/
theorem run_get_bind {f : Session → Step α} : (get >>= f).run s = (f s).run s := run_bind_ok rfl

/-- Steps that come to their end do so one after another. -/
theorem exists_of_run_bind {m : Step β} {f : β → Step α} {a : α} (h : (m >>= f).run s = (.ok a, t)) :
    ∃ b u, m.run s = (.ok b, u) ∧ (f b).run u = (.ok a, t) := by
  match hm : m.run s with
  | (.ok b, u) =>
    rw [run_bind_ok hm] at h
    exact ⟨b, u, rfl, h⟩
  | (.error e, u) =>
    rw [run_bind_error hm] at h
    cases h

/-- A step whose answer is put in other words. -/
theorem exists_of_run_return {m : Step β} {f : β → α} {a : α}
    (h : (m >>= fun b => pure (f b)).run s = (.ok a, t)) : ∃ b, m.run s = (.ok b, t) ∧ f b = a := by
  obtain ⟨b, u, hm, hf⟩ := exists_of_run_bind h
  cases hf
  exact ⟨b, hm, rfl⟩

section Leads

variable {Q : α → Session → Prop}

theorem Leads.mono {Q' : α → Session → Prop} {m : Step α} (h : Leads s m Q)
    (hq : ∀ a t, Q a t → Q' a t) : Leads s m Q' := by
  obtain ⟨a, t, hm, ha⟩ := h
  exact ⟨a, t, hm, hq a t ha⟩

/-- A step has one end, of which everything holds that it leads to. -/
theorem Leads.and {Q' : α → Session → Prop} {m : Step α} (h : Leads s m Q) (h' : Leads s m Q') :
    Leads s m fun a t => Q a t ∧ Q' a t := by
  obtain ⟨a, t, hm, ha⟩ := h
  obtain ⟨a', t', hm', ha'⟩ := h'
  cases hm.symm.trans hm'
  exact ⟨a, t, hm, ha, ha'⟩

/-- The same for one thing of each index. -/
theorem Leads.forall {ι : Type} {p : ι → Prop} {Q' : ι → α → Session → Prop} {m : Step α}
    (h : Leads s m Q) (h' : ∀ i, p i → Leads s m (Q' i)) :
    Leads s m fun a t => Q a t ∧ ∀ i, p i → Q' i a t := by
  obtain ⟨a, t, hm, ha⟩ := h
  refine ⟨a, t, hm, ha, fun i hi => ?_⟩
  obtain ⟨a', t', hm', ha'⟩ := h' i hi
  cases hm.symm.trans hm'
  exact ha'

theorem leads_pure {a : α} : Leads s (pure a) Q ↔ Q a s := by
  constructor
  · rintro ⟨b, t, h, hq⟩
    cases h
    exact hq
  · intro h
    exact ⟨a, s, rfl, h⟩

theorem leads_bind {m : Step β} {f : β → Step α} :
    Leads s (m >>= f) Q ↔ Leads s m fun b t => Leads t (f b) Q := by
  constructor
  · rintro ⟨a, u, h, hq⟩
    obtain ⟨b, t, hm, hf⟩ := exists_of_run_bind h
    exact ⟨b, t, hm, a, u, hf, hq⟩
  · rintro ⟨b, t, h, a, u, h', hq⟩
    exact ⟨a, u, (run_bind_ok h).trans h', hq⟩

theorem leads_get {Q : Session → Session → Prop} : Leads s get Q ↔ Q s s := by
  constructor
  · rintro ⟨a, t, h, hq⟩
    cases h
    exact hq
  · intro h
    exact ⟨s, s, rfl, h⟩

theorem leads_modify {f : Session → Session} {Q : PUnit → Session → Prop} :
    Leads s (modify f) Q ↔ Q ⟨⟩ (f s) := by
  constructor
  · rintro ⟨a, t, h, hq⟩
    cases h
    exact hq
  · intro h
    exact ⟨⟨⟩, f s, rfl, h⟩

theorem leads_discard {m : Step α} {Q : PUnit → Session → Prop} :
    Leads s (discard m) Q ↔ Leads s m fun _ => Q ⟨⟩ := by
  show Leads s (m >>= fun _ => pure ⟨⟩) Q ↔ _
  simp only [leads_bind, leads_pure]

/-- What is not interrupted needs no rescue. -/
theorem leads_tryCatch {m : Step α} {rescue : Interrupted → Step α} (h : Leads s m Q) :
    Leads s (tryCatch m rescue) Q := by
  obtain ⟨a, t, hm, hq⟩ := h
  refine ⟨a, t, ?_, hq⟩
  simp only [tryCatch, tryCatchThe, MonadExceptOf.tryCatch, ExceptT.tryCatch, ExceptT.run_mk]
  show (StateT.bind m.run _ : StateM Session _) s = _
  simp only [StateT.bind, hm]
  rfl

/-- A section that announces something. -/
theorem leads_inSection {tell : Publisher} {act : Job → Section α} {e : Event}
    (he : (act s.job).announces = some e) :
    Leads s (inSection tell act) Q ↔
      Leads { s with job := (act s.job).job } (tell e) fun _ t => Q (act s.job).answer t := by
  simp only [inSection, leads_bind, leads_get, leads_modify, he, leads_pure]

theorem leads_inSection_of_silent {tell : Publisher} {act : Job → Section α}
    (he : (act s.job).announces = none) :
    Leads s (inSection tell act) Q ↔ Q (act s.job).answer { s with job := (act s.job).job } := by
  simp only [inSection, leads_bind, leads_get, leads_modify, he, leads_pure]

/-- An announcement, up to what its listeners do. -/
theorem leads_deliver {follow : Nat → Publisher} {act : Deed → Step Unit} {e : Event}
    {Q : Except BusError Nat → Session → Prop} :
    Leads s (deliver follow act e) Q ↔
      Leads { s with bus := s.bus.record e } ((s.bus.matching e).forM (call follow act e)) fun _ t =>
        Q ((t.bus.broadcast e).reached (s.bus.matching e).length)
          { t with bus := t.bus.broadcast e } := by
  have hm : (s.bus.record e).matching e = s.bus.matching e := by
    simp only [Bus.record]
    split <;> rfl
  simp only [deliver, leads_bind, leads_modify, leads_get, leads_pure, hm]

end Leads

/-! ## Relations along which steps go -/

/-- One can go along `R` from sessions of which `P` holds: it joins sessions step by step and keeps `P`. -/
structure Along (P : Session → Prop) (R : Session → Session → Prop) : Prop where
  refl : ∀ s, P s → R s s
  trans : ∀ {s t u}, R s t → R t u → R s u
  keeps : ∀ {s t}, P s → R s t → P t

/-- From every session of which `P` holds a step leads to one that `R` relates to it. -/
def Takes (P : Session → Prop) (R : Session → Session → Prop) (m : Step α) : Prop :=
  ∀ s, P s → Leads s m fun _ t => R s t

namespace Takes

variable {P : Session → Prop} {R : Session → Session → Prop}

theorem pure (h : Along P R) (a : α) : Takes P R (pure a) :=
  fun s hs => leads_pure.mpr (h.refl s hs)

theorem bind (h : Along P R) {m : Step β} {f : β → Step α} (hm : Takes P R m)
    (hf : ∀ b, Takes P R (f b)) : Takes P R (m >>= f) := by
  intro s hs
  refine leads_bind.mpr ((hm s hs).mono fun b t hst => ?_)
  exact (hf b t (h.keeps hs hst)).mono fun _ _ htu => h.trans hst htu

/-- A step that looks at its session first. -/
theorem get_bind {f : Session → Step α} (hf : ∀ x, Takes P R (f x)) : Takes P R (get >>= f) :=
  fun s hs => leads_bind.mpr (leads_get.mpr (hf s s hs))

theorem modify {f : Session → Session} (hf : ∀ s, P s → R s (f s)) : Takes P R (modify f) :=
  fun s hs => leads_modify.mpr (hf s hs)

theorem discard {m : Step α} (hm : Takes P R m) : Takes P R (discard m) :=
  fun s hs => leads_discard.mpr (hm s hs)

theorem forM (h : Along P R) {f : β → Step PUnit} {xs : List β} (hf : ∀ x ∈ xs, Takes P R (f x)) :
    Takes P R (xs.forM f) := by
  induction xs with
  | nil => exact pure h PUnit.unit
  | cons x xs ih =>
    refine bind h (hf x List.mem_cons_self) fun _ => ih fun y hy => ?_
    exact hf y (List.mem_cons_of_mem x hy)

end Takes

end Step

/-! ## Operations -/

/-- What can be asked of a job, its cursors and its bus. -/
inductive Operation where
  | load (program : Program)
  | reload
  | loadFile (path : String) (content : Except FileError String)
  /-- Begins a run for a worker. -/
  | dispatch (hasWorker : Bool) (program : Program)
  | dispatchReload (hasWorker : Bool)
  | dispatchFile (path : String) (content : Except FileError String)
  /-- A worker carries out a run that was begun. -/
  | work (run : Run)
  | cancel
  | reset
  | select (index : Nat)
  | selectMove (id : MoveId)
  | newCursor
  | follow (cursor : Nat)
  | refresh (cursor : Nat)
  | stepForward (cursor : Nat)
  | stepBack (cursor : Nat)
  | seek (cursor index : Nat)
  | toggle (cursor : Nat)
  | pause (cursor : Nat)
  | play (interval cursor : Nat)
  | journal (filter : Filter)
  | arm (trigger : Trigger) (deed : Deed)

/-- What an operation meant to the cursors. -/
inductive Operation.Outcome where
  /-- A course was published. -/
  | published
  /-- A cursor was sized to what is published. -/
  | rewound (cursor : Nat)
  /-- A cursor was put on a move. -/
  | landed (cursor : Nat)
  | other
deriving DecidableEq, Repr

namespace Operation

namespace Outcome

/-- A run that was carried out has published its course, or has come to nothing. -/
def ofRun : Except JobError Snapshot → Outcome
  | .ok _ => .published
  | .error _ => .other

/-- A cursor that was to go to a place stands there, or the place was refused. -/
def ofLanding (cursor : Nat) : Except IndexError Move → Outcome
  | .ok _ => .landed cursor
  | .error _ => .other

/-- A cursor that was to go to a neighbouring place stands there, or there is none, or it was refused. -/
def ofStep (cursor : Nat) : Except IndexError (Option Move) → Outcome
  | .ok (some _) => .landed cursor
  | .ok none | .error _ => .other

end Outcome

open Step in
/-- Does what is asked. -/
def perform : Operation → Step Outcome
  | .load program => return .ofRun (← Step.load tell program)
  | .reload => return .ofRun (← Step.reload tell)
  | .loadFile path content => return .ofRun (← Step.loadFile path content)
  | .dispatch hasWorker program => do
    discard (Step.dispatch hasWorker program)
    return .other
  | .dispatchReload hasWorker => do
    discard (Step.dispatchReload hasWorker)
    return .other
  | .dispatchFile path content => do
    discard (Step.dispatchFile path content)
    return .other
  | .work run => return .ofRun (← inBackground run)
  | .cancel => do
    discard Step.cancel
    return .other
  | .reset => do
    Step.reset
    return .other
  | .select index => do
    discard (Step.select tell index)
    return .other
  | .selectMove id => do
    discard (Step.selectMove tell id)
    return .other
  | .newCursor => return .rewound (← Step.newCursor)
  | .follow cursor => do
    discard (Step.follow cursor)
    return .other
  | .refresh cursor => do
    discard (Step.refresh tell cursor)
    return .rewound cursor
  | .stepForward cursor => return .ofStep cursor (← Step.stepForward tell cursor)
  | .stepBack cursor => return .ofStep cursor (← Step.stepBack tell cursor)
  | .seek cursor index => return .ofLanding cursor (← Step.seek tell cursor index)
  | .toggle cursor => do
    discard (Step.toggle tell cursor)
    return .other
  | .pause cursor => do
    Step.pause tell cursor
    return .other
  | .play interval cursor => do
    discard (playEvery interval cursor)
    return .other
  | .journal filter => do
    discard (openJournal filter)
    return .other
  | .arm trigger deed => do
    discard (Step.arm trigger deed)
    return .other

/-- Does what is asked, one thing after another. -/
def performAll : List Operation → Step (List Outcome)
  | [] => return []
  | operation :: rest => return (← operation.perform) :: (← performAll rest)

end Operation

end Toolpath
