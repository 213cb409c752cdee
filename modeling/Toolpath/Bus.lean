import Toolpath.Event

/-!
# The event bus

`EventBus`, with `EventBusConfig`. Events reach two kinds of audience. *Subscriptions*
(`EventBus.subscribe`) name a handler that is called at once with every event its filter accepts.
*Receivers* (`EventBus.receiver`) get a copy of every event into a queue of bounded length; when it
overflows, the oldest events are lost and counted. A bus may also keep a bounded history.

`EventBus.publish` collects the handlers from a hash map, whose order is not specified. Here they are
called in the order of subscription, which is one of the possible orders.

* `BusConfig`: `EventBusConfig`; `BusConfig.queueSize`: the length of the broadcast channel.
* `Receiver.push`, `Receiver.contents`: a broadcast receiver, which knows how much it lost.
* `Bus.record`, `Bus.matching`, `Bus.broadcast`, `Bus.reached`: the parts of `EventBus.publish`; the first is
  `add_to_history`.
* `Bus.publish`: `EventBus.publish` for handlers that do not use the bus themselves.
* `Bus.events`, `Bus.clearHistory`: `EventBus.history` and `EventBus.clear_history`.
* `Bus.text`: the bus in one line, as `Debug` writes it.
-/

namespace Toolpath

/-- How a bus is set up. -/
structure BusConfig where
  capacity : Nat := 256
  keepsHistory : Bool := false
  historySize : Nat := 1000
  /-- How long an event stays in the history, in nanoseconds. -/
  retention : Nat := 300_000_000_000
deriving DecidableEq, Repr

namespace BusConfig

/-- The length of a receiver's queue: the capacity rounded up to a power of two. -/
def queueSize (c : BusConfig) : Nat :=
  if c.capacity ≤ 1 then 1 else Number.twoTo ((c.capacity - 1).log2 + 1)

/-- The whole seconds of the retention. -/
def retentionSeconds (c : BusConfig) : Nat := c.retention / Number.tenTo 9

end BusConfig

/-! ## Receivers -/

/-- A queue of events, the oldest first, and how many were lost before them. -/
structure Receiver where
  lost : Nat := 0
  queue : List Event := []
deriving DecidableEq, Repr

/-- What a receiver reads. -/
inductive Received where
  | event (e : Event)
  | lagged (count : Nat)
deriving DecidableEq, Repr

namespace Receiver

/-- Adds an event; what no longer fits is lost from the front. -/
def push (size : Nat) (e : Event) (r : Receiver) : Receiver :=
  let queue := r.queue ++ [e]
  let excess := queue.length - size
  { lost := r.lost + excess, queue := queue.drop excess }

/-- Everything a receiver has to read: first how much was lost, if anything was. -/
def contents (r : Receiver) : List Received :=
  (if r.lost = 0 then [] else [.lagged r.lost]) ++ r.queue.map .event

end Receiver

/-! ## The bus -/

/-- A listener with the events it wants. -/
structure Subscription (η : Type) where
  id : Nat
  filter : Filter
  listener : η
deriving DecidableEq, Repr

/-- An event with the time at which it was published, in nanoseconds. -/
structure Stamped where
  event : Event
  time : Nat
deriving DecidableEq, Repr

/-- A bus whose listeners are of type `η`. -/
structure Bus (η : Type) where
  config : BusConfig := {}
  subscriptions : List (Subscription η) := []
  receivers : List (Nat × Receiver) := []
  history : List Stamped := []
  /-- The present time; it moves on with every recorded event. -/
  clock : Nat := 0
  /-- The identifier of the next subscription or receiver. -/
  nextId : Nat := 0
deriving DecidableEq, Repr

/-- Why an event could not be published. -/
inductive BusError where
  | noSubscribers
deriving DecidableEq, Repr

/-- The message of a bus error. -/
def BusError.message : BusError → String
  | .noSubscribers => "No active subscribers"

namespace Bus

variable {η : Type}

/-! ### Audience -/

/-- Adds a subscription and gives its identifier. -/
def subscribe (b : Bus η) (filter : Filter) (listener : η) : Bus η × Nat :=
  ({ b with
      subscriptions := b.subscriptions ++ [{ id := b.nextId, filter, listener }]
      nextId := b.nextId + 1 }, b.nextId)

/-- Whether a subscription is active. -/
def isSubscribed (b : Bus η) (id : Nat) : Bool := b.subscriptions.any fun s => s.id = id

/-- Removes a subscription, and returns whether it was there. -/
def unsubscribe (b : Bus η) (id : Nat) : Bus η × Bool :=
  ({ b with subscriptions := b.subscriptions.filter fun s => s.id ≠ id }, b.isSubscribed id)

/-- Adds a receiver and gives its identifier; it gets the events from now on. -/
def attach (b : Bus η) : Bus η × Nat :=
  ({ b with receivers := b.receivers ++ [(b.nextId, {})], nextId := b.nextId + 1 }, b.nextId)

/-- Removes a receiver. -/
def detach (b : Bus η) (id : Nat) : Bus η :=
  { b with receivers := b.receivers.filter fun r => r.1 ≠ id }

/-- Reads and empties a receiver. -/
def drain (b : Bus η) (id : Nat) : Bus η × List Received :=
  let read := (b.receivers.find? fun r => r.1 = id).map fun r => r.2.contents
  ({ b with receivers := b.receivers.map fun r => if r.1 = id then (id, {}) else r }, read.getD [])

def subscriberCount (b : Bus η) : Nat := b.subscriptions.length

def receiverCount (b : Bus η) : Nat := b.receivers.length

/-! ### Publishing -/

/-- Drops what is too old and then what is too much, from the front. -/
def trimmed (c : BusConfig) (now : Nat) (history : List Stamped) : List Stamped :=
  let fresh := history.dropWhile fun s => now - s.time > c.retention
  fresh.drop (fresh.length - c.historySize)

/-- Enters an event into the history, if one is kept. -/
def record (b : Bus η) (e : Event) : Bus η :=
  if b.config.keepsHistory then
    { b with
      history := trimmed b.config b.clock (b.history ++ [⟨e, b.clock⟩])
      clock := b.clock + 1 }
  else b

/-- The listeners that want an event. They are listed in the order of subscription, one of the orders in which a
hash map may list them. -/
def matching (b : Bus η) (e : Event) : List η :=
  (b.subscriptions.filter fun s => s.filter.accepts e).map Subscription.listener

/-- Puts an event into every receiver. -/
def broadcast (b : Bus η) (e : Event) : Bus η :=
  { b with receivers := b.receivers.map fun r => (r.1, r.2.push b.config.queueSize e) }

/-- How many an event reached, given how many listeners were called. It is an error if there is no
audience at all, even one that did not want the event. -/
def reached (b : Bus η) (called : Nat) : Except BusError Nat :=
  if b.receiverCount + called = 0 && b.subscriberCount = 0 then .error .noSubscribers
  else .ok (b.receiverCount + called)

/-- Publishes an event to listeners that do not use the bus themselves: the bus after it, the listeners
that are called, and how many the event reached. -/
def publish (b : Bus η) (e : Event) : Bus η × List η × Except BusError Nat :=
  let called := b.matching e
  let after := (b.record e).broadcast e
  (after, called, after.reached called.length)

/-! ### History -/

/-- The present time, to ask later for what came after it. -/
def mark (b : Bus η) : Nat := b.clock

/-- The events in the history, or those since a mark. -/
def events (b : Bus η) (since : Option Nat) : List Event :=
  if b.config.keepsHistory then
    (b.history.filter fun s => since.all (· ≤ s.time)).map Stamped.event
  else []

def clearHistory (b : Bus η) : Bus η := { b with history := [] }

/-! ### Text -/

/-- A number of units and thousandths, millionths or billionths of it: the fraction has the given number of digits,
and the zeros at its end are left out. -/
def fractional (whole fraction digits : Nat) : String :=
  let shown := (Nat.toDigits 10 (Number.tenTo digits + fraction)).tail.reverse.dropWhile (· = '0')
  toString whole ++ String.ofList (if shown = [] then [] else '.' :: shown.reverse)

/-- A span of nanoseconds, in the greatest unit that it holds. -/
def durationText (nanoseconds : Nat) : String :=
  let inUnit (digits : Nat) (unit : String) :=
    fractional (nanoseconds / Number.tenTo digits) (nanoseconds % Number.tenTo digits) digits ++ unit
  if Number.tenTo 9 ≤ nanoseconds then inUnit 9 "s"
  else if Number.tenTo 6 ≤ nanoseconds then inUnit 6 "ms"
  else if Number.tenTo 3 ≤ nanoseconds then inUnit 3 "µs"
  else inUnit 0 "ns"

/-- Names and values between braces. -/
def braced (name : String) (fields : List (String × String)) : String :=
  name ++ " \x7b " ++ ", ".intercalate (fields.map fun (key, v) => key ++ ": " ++ v) ++ " \x7d"

/-- The bus in one line. -/
def text (b : Bus η) : String :=
  braced "EventBus" [("subscribers", toString b.subscriberCount),
    ("receivers", toString b.receiverCount),
    ("config", braced "EventBusConfig" [("channel_capacity", toString b.config.capacity),
      ("enable_history", toString b.config.keepsHistory),
      ("max_history_size", toString b.config.historySize),
      ("history_retention", durationText b.config.retention)])]

end Bus

end Toolpath
