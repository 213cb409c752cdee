import Toolpath.Proofs.Bus.PublishTree

/-!
# A bus in the course of requests

* `Bus.Request`: what can be asked of a bus whose listeners do not use it themselves. Time passes between
  requests.
* `Bus.serve`, `Bus.serveAll`: a bus after one request and after many; `Bus.after` starts with a new bus.
* `Bus.subscriptions_serve`, `Bus.receiverIds_serve`, `Bus.nextId_serve`: all that a request does to the audience.
* `foldl_present_iff`: what is there after many steps was added by one of them and removed by none since.
-/

namespace Toolpath

/-- What steps add and remove one by one is there in the end exactly if it was added, or was there before,
and was not removed since. -/
theorem foldl_present_iff {σ α : Type} {step : σ → α → σ} (Here : σ → Prop) {Adds : σ → α → Prop}
    {Removes : α → Prop} (hstep : ∀ s x, Here (step s x) ↔ Adds s x ∨ Here s ∧ ¬ Removes x) (s : σ)
    (xs : List α) :
    Here (xs.foldl step s) ↔
      (∃ before x later, xs = before ++ x :: later ∧ Adds (before.foldl step s) x ∧
        ∀ y ∈ later, ¬ Removes y) ∨
      Here s ∧ ∀ x ∈ xs, ¬ Removes x := by
  induction xs generalizing s with
  | nil => simp
  | cons x xs ih =>
    rw [List.foldl_cons, ih, hstep]
    constructor
    · rintro (⟨before, y, later, rfl, hadds, hlater⟩ | ⟨hadds | ⟨hhere, hx⟩, hlater⟩)
      · exact .inl ⟨x :: before, y, later, rfl, hadds, hlater⟩
      · exact .inl ⟨[], x, xs, rfl, hadds, hlater⟩
      · exact .inr ⟨hhere, List.forall_mem_cons.mpr ⟨hx, hlater⟩⟩
    · rintro (⟨before, y, later, hsplit, hadds, hlater⟩ | ⟨hhere, hnone⟩)
      · cases before with
        | nil =>
          cases hsplit
          exact .inr ⟨.inl hadds, hlater⟩
        | cons z before =>
          cases hsplit
          exact .inl ⟨before, y, later, rfl, hadds, hlater⟩
      · obtain ⟨hx, hlater⟩ := List.forall_mem_cons.mp hnone
        exact .inr ⟨.inr ⟨hhere, hx⟩, hlater⟩

namespace Bus

variable {η : Type}

/-- What can be asked of a bus. -/
inductive Request (η : Type) where
  | subscribe (filter : Filter) (listener : η)
  | unsubscribe (id : Nat)
  | attach
  | detach (id : Nat)
  | drain (id : Nat)
  | publish (event : Event)
  /-- Publishes, and it does not matter whether anybody listens. -/
  | notify (event : Event)
  | clearHistory
  /-- Nothing is asked for some time. -/
  | wait (time : Nat)

namespace Request

/-- The event that is published. -/
def event? : Request η → Option Event
  | .publish e | .notify e => some e
  | _ => none

/-- Whether the history is cleared. -/
def clears : Request η → Bool
  | .clearHistory => true
  | _ => false

/-- Whether a subscription is withdrawn. -/
def withdraws (id : Nat) : Request η → Bool
  | .unsubscribe other => other = id
  | _ => false

/-- Whether a receiver is dropped. -/
def drops (id : Nat) : Request η → Bool
  | .detach other => other = id
  | _ => false

end Request

/-- The bus after a request. -/
def serve (b : Bus η) : Request η → Bus η
  | .subscribe filter listener => (b.subscribe filter listener).1
  | .unsubscribe id => (b.unsubscribe id).1
  | .attach => b.attach.1
  | .detach id => b.detach id
  | .drain id => (b.drain id).1
  | .publish e | .notify e => (b.publish e).1
  | .clearHistory => b.clearHistory
  | .wait time => { b with clock := b.clock + time }

/-- The bus after requests. -/
def serveAll (b : Bus η) (requests : List (Request η)) : Bus η := requests.foldl serve b

/-- A new bus after requests. -/
def after (config : BusConfig) (requests : List (Request η)) : Bus η := serveAll { config } requests

section Serve

variable (b : Bus η) (r : Request η) (e : Event)

@[simp] theorem serveAll_nil : b.serveAll [] = b := rfl

@[simp] theorem serveAll_cons (requests : List (Request η)) :
    b.serveAll (r :: requests) = (b.serve r).serveAll requests := rfl

theorem serveAll_append (before later : List (Request η)) :
    b.serveAll (before ++ later) = (b.serveAll before).serveAll later := List.foldl_append

theorem after_append (config : BusConfig) (before later : List (Request η)) :
    after config (before ++ later) = (after config before).serveAll later := serveAll_append _ before later

@[simp] theorem config_serve : (b.serve r).config = b.config := by
  cases r with
  | publish e | notify e => exact config_record b e
  | _ => rfl

theorem config_serveAll (requests : List (Request η)) : (b.serveAll requests).config = b.config := by
  induction requests generalizing b with
  | nil => rfl
  | cons r requests ih => rw [serveAll_cons, ih, config_serve]

@[simp] theorem config_after (config : BusConfig) (requests : List (Request η)) :
    (after config requests).config = config := config_serveAll _ requests

/-! ### What a request does to the audience -/

theorem subscriptions_serve :
    (b.serve r).subscriptions =
      match r with
      | .subscribe filter listener => b.subscriptions ++ [⟨b.nextId, filter, listener⟩]
      | .unsubscribe id => b.subscriptions.filter fun s => s.id ≠ id
      | _ => b.subscriptions := by
  cases r with
  | publish e | notify e => exact subscriptions_record b e
  | _ => rfl

/-- The numbers of the receivers. -/
def receiverIds (b : Bus η) : List Nat := b.receivers.map Prod.fst

theorem receiverIds_serve :
    (b.serve r).receiverIds =
      match r with
      | .attach => b.receiverIds ++ [b.nextId]
      | .detach id => b.receiverIds.filter (· ≠ id)
      | _ => b.receiverIds := by
  cases r with
  | attach => exact List.map_append
  | detach id =>
    show (b.receivers.filter _).map Prod.fst = (b.receivers.map Prod.fst).filter _
    rw [List.filter_map]
    rfl
  | drain id =>
    rw [receiverIds, serve, drain, List.map_map]
    refine List.map_congr_left fun r _ => ?_
    by_cases h : r.1 = id <;> simp [h]
  | publish e | notify e =>
    show ((b.record e).receivers.map _).map Prod.fst = _
    rw [receivers_record, List.map_map]
    rfl
  | _ => rfl

theorem nextId_serve :
    (b.serve r).nextId =
      match r with
      | .subscribe _ _ | .attach => b.nextId + 1
      | _ => b.nextId := by
  cases r with
  | publish e | notify e =>
    show (b.record e).nextId = b.nextId
    simp only [record]
    split <;> rfl
  | _ => rfl

theorem nextId_le_serve : b.nextId ≤ (b.serve r).nextId := by
  rw [nextId_serve]
  split <;> omega

theorem nextId_le_serveAll (requests : List (Request η)) : b.nextId ≤ (b.serveAll requests).nextId := by
  induction requests generalizing b with
  | nil => exact Nat.le_refl _
  | cons r requests ih => exact Nat.le_trans (nextId_le_serve b r) (ih (b.serve r))

end Serve

end Bus

end Toolpath
