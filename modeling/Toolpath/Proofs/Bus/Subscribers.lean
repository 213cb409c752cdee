import Toolpath.Proofs.Bus.Request

/-!
# Subscribers

Subscriptions and receivers come and go while events are published. Which listener is called with which
event, and what `EventBus.publish` returns, depends on every request before.

* `Bus.Delivery`: a listener is called on behalf of a subscription. `Bus.delivered` are all calls in the
  course of some requests, in order.
* `Bus.Numbered`: subscriptions and receivers carry ascending numbers, all of them given out before. So a number
  is never given out twice (`serve_numbered`).
* `Bus.delivered_to`: what one subscription receives, by induction on the requests.
* `Bus.Subscribed`, `Bus.Attached`: subscriptions and receivers, read off the requests alone.
* `Bus.delivery_exact`: listeners are called exactly as they subscribed, and a publication returns how many it
  reached.
-/

namespace Toolpath

/-! ## Numbers -/

/-- Numbers in ascending order, all of them given out before `next`. -/
structure Ascending (next : Nat) (ids : List Nat) : Prop where
  sorted : ids.Pairwise (· < ·)
  lt : ∀ id ∈ ids, id < next

namespace Ascending

variable {next : Nat} {ids : List Nat}

theorem nil (next : Nat) : Ascending next [] := ⟨.nil, nofun⟩

theorem nodup (h : Ascending next ids) : ids.Nodup := h.sorted.imp fun hlt => Nat.ne_of_lt hlt

theorem succ (h : Ascending next ids) : Ascending (next + 1) ids :=
  ⟨h.sorted, fun id hid => Nat.lt_succ_of_lt (h.lt id hid)⟩

theorem sublist {fewer : List Nat} (h : Ascending next ids) (hsub : fewer.Sublist ids) :
    Ascending next fewer := ⟨h.sorted.sublist hsub, fun id hid => h.lt id (hsub.subset hid)⟩

/-- The next number is given out. -/
theorem push (h : Ascending next ids) : Ascending (next + 1) (ids ++ [next]) where
  sorted := List.pairwise_append.mpr ⟨h.sorted, List.pairwise_singleton _ _, fun id hid last hlast => by
    rw [List.mem_singleton.mp hlast]
    exact h.lt id hid⟩
  lt id hid := by
    rcases List.mem_append.mp hid with hid | hid
    · exact Nat.lt_succ_of_lt (h.lt id hid)
    · rw [List.mem_singleton.mp hid]
      exact Nat.lt_succ_self next

end Ascending

/-- A listener is called with an event on behalf of its subscription. -/
structure Delivery (η : Type) where
  subscription : Nat
  listener : η
  event : Event
deriving DecidableEq, Repr

/-- A subscription gets an event. -/
def Subscription.receive {η : Type} (s : Subscription η) (e : Event) : Delivery η := ⟨s.id, s.listener, e⟩

namespace Bus

variable {η : Type} {b : Bus η}

/-- Subscriptions and receivers carry numbers that were given out in their order. -/
structure Numbered (b : Bus η) : Prop where
  subscriptions : Ascending b.nextId (b.subscriptions.map Subscription.id)
  receivers : Ascending b.nextId b.receiverIds

/-- **Step.** A request gives out at most the next number. -/
theorem serve_numbered (h : b.Numbered) (r : Request η) : (b.serve r).Numbered := by
  constructor <;> simp only [nextId_serve, subscriptions_serve, receiverIds_serve]
  · cases r with
    | subscribe filter listener =>
      rw [List.map_append]
      exact h.subscriptions.push
    | unsubscribe id => exact h.subscriptions.sublist (List.filter_sublist.map _)
    | attach => exact h.subscriptions.succ
    | _ => exact h.subscriptions
  · cases r with
    | attach => exact h.receivers.push
    | detach id => exact h.receivers.sublist List.filter_sublist
    | subscribe filter listener => exact h.receivers.succ
    | _ => exact h.receivers

/-- **Run.** -/
theorem after_numbered (config : BusConfig) (requests : List (Request η)) :
    (after config requests).Numbered := by
  have hrun {c : Bus η} (h : c.Numbered) : (c.serveAll requests).Numbered := by
    induction requests generalizing c with
    | nil => exact h
    | cons r requests ih => exact ih (serve_numbered h r)
  exact hrun ⟨.nil _, .nil _⟩

/-! ## Calls -/

/-- The calls that a request leads to, with the subscriptions that they are made for. -/
def deliveries (b : Bus η) (r : Request η) : List (Delivery η) :=
  r.event?.toList.flatMap fun e => (b.subscriptions.filter fun s => s.filter.accepts e).map (·.receive e)

/-- The calls that a request leads to, as publishing reports them. -/
def calls (b : Bus η) (r : Request η) : List (η × Event) :=
  r.event?.toList.flatMap fun e => (b.publish e).2.1.map (·, e)

/-- What the requests to a bus give, one after another. -/
def collect {α : Type} (give : Bus η → Request η → List α) (b : Bus η) : List (Request η) → List α
  | [] => []
  | r :: requests => give b r ++ collect give (b.serve r) requests

/-- All calls in the course of some requests. -/
def delivered (b : Bus η) (requests : List (Request η)) : List (Delivery η) := b.collect deliveries requests

theorem collect_append {α : Type} (give : Bus η → Request η → List α) (b : Bus η)
    (before later : List (Request η)) :
    b.collect give (before ++ later) = b.collect give before ++ (b.serveAll before).collect give later := by
  induction before generalizing b with
  | nil => rfl
  | cons r before ih => simp [collect, ih]

theorem collect_map {α β : Type} (give : Bus η → Request η → List α) (f : α → β) (b : Bus η)
    (requests : List (Request η)) :
    (b.collect give requests).map f = b.collect (fun b r => (give b r).map f) requests := by
  induction requests generalizing b with
  | nil => rfl
  | cons r requests ih => simp [collect, ih]

/-- Publishing reports exactly the calls that are made for subscriptions. -/
theorem collect_calls (b : Bus η) (requests : List (Request η)) :
    b.collect calls requests = (b.delivered requests).map fun d => (d.listener, d.event) := by
  have hcalls : calls = fun (b : Bus η) r => (b.deliveries r).map fun d => (d.listener, d.event) := by
    funext b r
    simp [calls, deliveries, publish, matching, List.map_flatMap, Function.comp_def, Subscription.receive]
  rw [delivered, collect_map, hcalls]

/-- The subscriptions with a number. -/
def standing (b : Bus η) (id : Nat) : List (Subscription η) := b.subscriptions.filter fun s => s.id = id

/-- A number that was given out stands for the same subscription until that is withdrawn. -/
theorem standing_serve {id : Nat} (hid : id < b.nextId) (r : Request η) :
    (b.serve r).standing id = if r.withdraws id then [] else b.standing id := by
  rw [standing, subscriptions_serve]
  cases r with
  | subscribe filter listener =>
    have hnew : b.nextId ≠ id := Nat.ne_of_gt hid
    simp [standing, Request.withdraws, hnew]
  | unsubscribe other =>
    rw [List.filter_filter]
    by_cases ho : other = id
    · simp [Request.withdraws, ho]
    · rw [if_neg (by simp [Request.withdraws, ho])]
      refine List.filter_congr fun s _ => ?_
      by_cases hs : s.id = id <;> simp [hs, Ne.symm ho]
  | _ => rfl

theorem deliveries_to (b : Bus η) (r : Request η) (id : Nat) :
    (b.deliveries r).filter (fun d => d.subscription = id) =
      r.event?.toList.flatMap fun e =>
        ((b.standing id).filter fun s => s.filter.accepts e).map (·.receive e) := by
  rw [deliveries, List.filter_flatMap]
  refine congrArg (List.flatMap · _) (funext fun e => ?_)
  rw [List.filter_map, standing, List.filter_filter, List.filter_filter]
  refine congrArg _ (List.filter_congr fun s _ => ?_)
  exact Bool.and_comm _ _

/-- **What one subscription receives.** From a bus that has given out its number on, these are the events that are
published until it is withdrawn, as far as its filter accepts them. The induction is on the requests. -/
theorem delivered_to {id : Nat} (hid : id < b.nextId) (requests : List (Request η)) :
    (b.delivered requests).filter (fun d => d.subscription = id) =
      ((requests.takeWhile fun r => !r.withdraws id).filterMap Request.event?).flatMap fun e =>
        ((b.standing id).filter fun s => s.filter.accepts e).map (·.receive e) := by
  induction requests generalizing b with
  | nil => rfl
  | cons r requests ih =>
    have hrest := ih (Nat.lt_of_lt_of_le hid (nextId_le_serve b r))
    rw [standing_serve hid] at hrest
    rw [delivered, collect, List.filter_append, ← delivered, hrest, deliveries_to]
    cases hw : r.withdraws id with
    | true =>
      have hnone : r.event? = none := by
        cases r with
        | publish e | notify e => cases hw
        | _ => rfl
      simp [hw, hnone]
    | false => cases he : r.event? <;> simp [hw, he]

/-- A listener is called only on behalf of a subscription that was active at some time. -/
theorem exists_of_mem_delivered {requests : List (Request η)} {d : Delivery η}
    (h : d ∈ b.delivered requests) :
    ∃ before later s, requests = before ++ later ∧ s ∈ (b.serveAll before).subscriptions ∧
      d.subscription = s.id ∧ d.listener = s.listener := by
  induction requests generalizing b with
  | nil => cases h
  | cons r requests ih =>
    rw [delivered, collect, List.mem_append] at h
    rcases h with h | h
    · obtain ⟨e, -, hd⟩ := List.mem_flatMap.mp h
      obtain ⟨s, hs, rfl⟩ := List.mem_map.mp hd
      exact ⟨[], r :: requests, s, rfl, (List.mem_filter.mp hs).1, rfl, rfl⟩
    · obtain ⟨before, later, s, rfl, hs, hd⟩ := ih h
      exact ⟨r :: before, later, s, rfl, hs, hd⟩

/-! ## The audience -/

/-- A subscription was made in the course of some requests, and was not withdrawn since. -/
def Subscribed (config : BusConfig) (requests : List (Request η)) (s : Subscription η) : Prop :=
  ∃ before later, requests = before ++ .subscribe s.filter s.listener :: later ∧
    ((after config before).subscribe s.filter s.listener).2 = s.id ∧
    ∀ r ∈ later, r.withdraws s.id = false

/-- A receiver was made in the course of some requests, and was not dropped since. -/
def Attached (config : BusConfig) (requests : List (Request η)) (id : Nat) : Prop :=
  ∃ before later, requests = before ++ .attach :: later ∧ (after config before).attach.2 = id ∧
    ∀ r ∈ later, r.drops id = false

theorem mem_subscriptions_serve (b : Bus η) (s : Subscription η) (r : Request η) :
    s ∈ (b.serve r).subscriptions ↔
      (r = .subscribe s.filter s.listener ∧ b.nextId = s.id) ∨
        s ∈ b.subscriptions ∧ ¬ r.withdraws s.id = true := by
  rw [subscriptions_serve]
  cases r with
  | subscribe filter listener =>
    have hnew : s = ⟨b.nextId, filter, listener⟩ ↔
        Request.subscribe filter listener = .subscribe s.filter s.listener ∧ b.nextId = s.id := by
      cases s
      grind
    rw [List.mem_append, List.mem_singleton, hnew, or_comm]
    simp [Request.withdraws]
  | unsubscribe id => simp [Request.withdraws, ne_comm]
  | _ => simp [Request.withdraws]

theorem mem_receiverIds_serve (b : Bus η) (id : Nat) (r : Request η) :
    id ∈ (b.serve r).receiverIds ↔
      (r = .attach ∧ b.nextId = id) ∨ id ∈ b.receiverIds ∧ ¬ r.drops id = true := by
  rw [receiverIds_serve]
  cases r with
  | attach =>
    rw [List.mem_append, List.mem_singleton, or_comm, eq_comm]
    simp [Request.drops]
  | detach other => simp [Request.drops, ne_comm]
  | _ => simp [Request.drops]

/-- The subscriptions of a bus are those that were made and not withdrawn since. -/
theorem mem_subscriptions_after {config : BusConfig} {requests : List (Request η)} {s : Subscription η} :
    s ∈ (after config requests).subscriptions ↔ Subscribed config requests s := by
  refine (foldl_present_iff (s ∈ ·.subscriptions) (fun b r => mem_subscriptions_serve b s r) _ requests).trans ?_
  constructor
  · rintro (⟨before, r, later, rfl, ⟨rfl, hid⟩, hlater⟩ | ⟨hnew, -⟩)
    · exact ⟨before, later, rfl, hid, fun r hr => Bool.eq_false_iff.mpr (hlater r hr)⟩
    · cases hnew
  · rintro ⟨before, later, rfl, hid, hlater⟩
    exact .inl ⟨before, _, later, rfl, ⟨rfl, hid⟩, fun r hr => Bool.eq_false_iff.mp (hlater r hr)⟩

/-- The receivers of a bus are those that were made and not dropped since. -/
theorem mem_receiverIds_after {config : BusConfig} {requests : List (Request η)} {id : Nat} :
    id ∈ (after config requests).receiverIds ↔ Attached config requests id := by
  refine (foldl_present_iff (id ∈ receiverIds ·) (fun b r => mem_receiverIds_serve b id r) _ requests).trans ?_
  constructor
  · rintro (⟨before, r, later, rfl, ⟨rfl, hid⟩, hlater⟩ | ⟨hnew, -⟩)
    · exact ⟨before, later, rfl, hid, fun r hr => Bool.eq_false_iff.mpr (hlater r hr)⟩
    · cases hnew
  · rintro ⟨before, later, rfl, hid, hlater⟩
    exact .inl ⟨before, _, later, rfl, ⟨rfl, hid⟩, fun r hr => Bool.eq_false_iff.mp (hlater r hr)⟩

/-! ## What a subscription receives -/

/-- Before a number is given out, nobody is called on its behalf. -/
theorem delivered_lt {config : BusConfig} {requests : List (Request η)} {d : Delivery η}
    (h : d ∈ delivered { config } requests) : d.subscription < (after config requests).nextId := by
  obtain ⟨before, later, s, rfl, hs, hd, -⟩ := exists_of_mem_delivered h
  rw [hd, after_append]
  have hlt : s.id < (after config before).nextId :=
    (after_numbered config before).subscriptions.lt s.id (List.mem_map_of_mem hs)
  exact Nat.lt_of_lt_of_le hlt (nextId_le_serveAll _ later)

/-- A new subscription is the only one with its number. -/
theorem standing_subscribe (h : b.Numbered) (filter : Filter) (listener : η) :
    (b.serve (.subscribe filter listener)).standing b.nextId = [⟨b.nextId, filter, listener⟩] := by
  have hold : b.standing b.nextId = [] := by
    refine List.filter_eq_nil_iff.mpr fun s hs => ?_
    have hlt := h.subscriptions.lt s.id (List.mem_map_of_mem hs)
    simpa using Nat.ne_of_lt hlt
  rw [standing] at hold
  rw [standing, subscriptions_serve, List.filter_append, hold]
  simp

theorem flatMap_receive (s : Subscription η) (events : List Event) :
    (events.flatMap fun e => ([s].filter fun s => s.filter.accepts e).map (·.receive e)) =
      (events.filter s.filter.accepts).map s.receive := by
  induction events with
  | nil => rfl
  | cons e events ih =>
    rw [List.flatMap_cons, ih]
    cases h : s.filter.accepts e <;> simp [h]

/-- What a subscription receives in all, from a new bus on. -/
theorem delivered_subscribed (config : BusConfig) (before later : List (Request η)) (filter : Filter)
    (listener : η) {id : Nat} (hid : (after config before).nextId = id) :
    (delivered { config } (before ++ .subscribe filter listener :: later)).filter
        (fun d => d.subscription = id) =
      (((later.takeWhile fun r => !r.withdraws id).filterMap Request.event?).filter filter.accepts).map
        (Subscription.receive ⟨id, filter, listener⟩) := by
  subst hid
  have hbefore : (delivered { config } before).filter
      (fun d => d.subscription = (after config before).nextId) = [] := by
    refine List.filter_eq_nil_iff.mpr fun d hd => ?_
    simpa using Nat.ne_of_lt (delivered_lt hd)
  have hgiven : (after config before).nextId <
      ((after config before).serve (.subscribe filter listener)).nextId := Nat.lt_succ_self _
  rw [delivered, collect_append, List.filter_append, ← delivered, hbefore, List.nil_append]
  -- The request itself publishes nothing.
  show (delivered ((after config before).serve (.subscribe filter listener)) later).filter _ = _
  rw [delivered_to hgiven, standing_subscribe (after_numbered config before), flatMap_receive]

/-- What a publication returns if an event reaches so many receivers and calls the listeners of so many of the
active subscriptions. -/
structure PublishResult (receivers called active : Nat) (answer : Except BusError Nat) : Prop where
  reached : 0 < receivers + called → answer = .ok (receivers + called)
  /-- There are subscriptions, for other events. -/
  unwanted : receivers + called = 0 → 0 < active → answer = .ok 0
  nobody : answer = .error .noSubscribers ↔ receivers = 0 ∧ active = 0

theorem result_reached (receivers : Nat) {called active : Nat} (h : called ≤ active) :
    PublishResult receivers called active
      (if receivers + called = 0 && active = 0 then .error .noSubscribers else .ok (receivers + called)) := by
  by_cases hnone : receivers + called = 0 ∧ active = 0
  · rw [if_pos (by simpa using hnone)]
    exact ⟨fun hsome => by omega, fun _ hactive => by omega, iff_of_true rfl (by omega)⟩
  · rw [if_neg (by simpa using hnone)]
    exact ⟨fun _ => rfl, fun hunwanted _ => by rw [hunwanted], iff_of_false nofun (by omega)⟩

theorem publish_result (b : Bus η) (e : Event) :
    PublishResult b.receiverIds.length (b.subscriptions.filter fun s => s.filter.accepts e).length
      b.subscriptions.length (b.publish e).2.2 := by
  have hresult := result_reached b.receiverIds.length
    (List.length_filter_le (fun s : Subscription η => s.filter.accepts e) b.subscriptions)
  simpa [publish, reached, broadcast, receiverCount, subscriberCount, matching, receiverIds,
    receivers_record, subscriptions_record] using hresult

/-- Everything about the subscriptions and receivers of a new bus in the course of some requests. -/
structure Faithful (config : BusConfig) (requests : List (Request η)) : Prop where
  /-- Publishing calls listeners for their subscriptions and for nothing else. -/
  reported : collect calls { config } requests =
    (delivered { config } requests).map fun d => (d.listener, d.event)
  /-- What is called was asked for. -/
  asked : ∀ d ∈ delivered { config } requests, ∃ before filter later,
    requests = before ++ .subscribe filter d.listener :: later ∧
      ((after config before).subscribe filter d.listener).2 = d.subscription
  /-- A subscription receives, once each and in order, the events that it wants and that are published before
  it is withdrawn. -/
  receives : ∀ before filter listener later, requests = before ++ .subscribe filter listener :: later →
    ∀ id, ((after config before).subscribe filter listener).2 = id →
      (delivered { config } requests).filter (fun d => d.subscription = id) =
        (((later.takeWhile fun r => !r.withdraws id).filterMap Request.event?).filter filter.accepts).map
          (Subscription.receive ⟨id, filter, listener⟩)
  /-- A publication returns how many there are at that moment. -/
  result : ∃ active : List (Subscription η), ∃ live : List Nat,
    (active.map Subscription.id).Nodup ∧ (∀ s, s ∈ active ↔ Subscribed config requests s) ∧
    live.Nodup ∧ (∀ id, id ∈ live ↔ Attached config requests id) ∧
    ∀ e, PublishResult live.length (active.filter fun s => s.filter.accepts e).length active.length
      ((after config requests).publish e).2.2
  /-- Only what is active can be withdrawn. -/
  withdrawn : ∀ id, ((after config requests).unsubscribe id).2 = true ↔
    ∃ s, Subscribed config requests s ∧ s.id = id

/-- **Listeners are called exactly as they subscribed.** Whatever is requested of a new bus, each subscription receives
every event that its filter accepts from its request until it is withdrawn, once each, and nothing else is called.
A publication returns how many receivers and subscriptions the event reached, and fails only if there is neither.
-/
theorem delivery_exact (config : BusConfig) (requests : List (Request η)) : Faithful config requests where
  reported := collect_calls _ requests
  asked d hd := by
    obtain ⟨before, later, s, rfl, hs, hid, hlistener⟩ := exists_of_mem_delivered hd
    obtain ⟨first, rest, rfl, hnew, -⟩ := mem_subscriptions_after.mp hs
    rw [hlistener, hid]
    exact ⟨first, s.filter, rest ++ later, by simp, hnew⟩
  receives before filter listener later hrequests id hid := by
    rw [hrequests]
    exact delivered_subscribed config before later filter listener hid
  result := ⟨(after config requests).subscriptions, (after config requests).receiverIds,
    (after_numbered config requests).subscriptions.nodup, fun _ => mem_subscriptions_after,
    (after_numbered config requests).receivers.nodup, fun _ => mem_receiverIds_after,
    publish_result (after config requests)⟩
  withdrawn id := by
    rw [unsubscribe, isSubscribed, List.any_eq_true]
    simp only [mem_subscriptions_after, decide_eq_true_eq]

end Bus

end Toolpath
