import Toolpath.Bus
import Toolpath.Cursor
import Toolpath.Files
import Toolpath.Job

/-!
# Sessions

A session joins a `Job`, its `EventBus` and any number of `Playback` cursors. An operation is a `Step`:
it changes the session, publishes what it did, and may be interrupted by a listener.

While an event is published its listeners run, and these may use the session themselves. A cursor that
follows the job publishes its new range; a *reaction* does one deed at the first event that triggers it.
Each reaction acts once, so publishing ends: `announce n` serves a session with at most `n` reactions
still to come.

* `Step.execute`, `Step.load`, `Step.reload`: `Job.execute`, `load_blocking` and `reload_blocking`.
* `Step.select`, `Step.selectMove`: `Job.select_index` and `Job.select_move`, with `announce_selection`.
* `Step.setRange`, `Step.refresh`, `Step.landOn`, `Step.stepForward`, `Step.stepBack`, `Step.seek`,
  `Step.toggle`, `Step.pause`: `set_range`, and `refresh`, `land_on`, `step`, `step_back`, `seek`,
  `toggle_play` and `pause` of `Playback`.
* `Step.follow`, `Step.followUp`: `Playback.follow` and the handler that it subscribes.
* `Step.deliver`: `EventBus.publish` with handlers that may publish: history, listeners, receivers.
* `Step.publish`, `Step.tell`: `EventBus.publish` and `EventBus.notify`, with everything that the handlers
  do in turn.
* `Step.loadFile`: `Job.load_file_blocking`.
* `Step.dispatch`, `Step.dispatchReload`, `Step.dispatchFile`: `Job.load`, `Job.reload` and
  `Job.load_file`, runs that a worker carries out. `Step.inBackground` is the worker of `Job.spawn`, and
  `Step.awaitRun` is `ProcessingHandle.wait`.
-/

namespace Toolpath

/-- What a reaction does. -/
inductive Deed where
  | cancel
  | reset
  | reload
  | load (program : Program)
  /-- Breaks off whatever announced the event. -/
  | abort
  | pause (cursor : Nat)
  | toggle (cursor : Nat)
  | seek (cursor index : Nat)
deriving DecidableEq, Repr

/-- The events that set off a reaction. -/
structure Trigger where
  kind : EventKind
  /-- For selections, the place that has to be selected. -/
  index : Option Nat := none
deriving DecidableEq, Repr

def Trigger.fires (t : Trigger) (e : Event) : Bool :=
  e.kind = t.kind &&
    match e, t.index with
    | .selection selected, some index => selected.index = index
    | _, _ => true

/-- A deed that waits for its event. -/
structure Reaction where
  id : Nat
  trigger : Trigger
  deed : Deed
deriving DecidableEq, Repr

/-- What is called with an event. -/
inductive Listener where
  /-- Writes the event into a journal. -/
  | journal (book : Nat)
  /-- Keeps a cursor in step with the published course. -/
  | follow (cursor : Nat)
  /-- Does a deed once. -/
  | reaction (id : Nat)
deriving DecidableEq, Repr

/-- A job with its bus and its cursors. -/
structure Session where
  setup : Setup
  job : Job := {}
  bus : Bus Listener := {}
  cursors : Array Cursor := #[]
  journals : Array (Array Event) := #[]
  /-- The reactions that have not acted yet. -/
  armed : List Reaction := []
  /-- The identifier of the next reaction. -/
  nextReaction : Nat := 0

/-- An operation was broken off by a listener. -/
inductive Interrupted where
  | interrupted
deriving DecidableEq, Repr

/-- An operation on a session. What was done before an interruption stays done. -/
abbrev Step := ExceptT Interrupted (StateM Session)

/-- How an operation announces an event. -/
abbrev Publisher := Event → Step Unit

namespace Session

def cursor (s : Session) (id : Nat) : Cursor := s.cursors.getD id {}

def setCursor (s : Session) (id : Nat) (c : Cursor) : Session :=
  { s with cursors := s.cursors.setIfInBounds id c }

/-- Adds an event to a journal. -/
def note (s : Session) (book : Nat) (e : Event) : Session :=
  { s with journals := s.journals.modify book (·.push e) }

/-- The armed reaction with an identifier, if the event triggers it. -/
def triggered? (s : Session) (id : Nat) (e : Event) : Option Reaction :=
  s.armed.find? fun r => r.id = id && r.trigger.fires e

def disarm (s : Session) (id : Nat) : Session := { s with armed := s.armed.filter fun r => r.id ≠ id }

end Session

namespace Step

/-! ## The job -/

/-- One section of the job's life, with what it announces. -/
def inSection {α : Type} (tell : Publisher) (act : Job → Section α) : Step α := do
  let done := act (← get).job
  modify fun s => { s with job := done.job }
  match done.announces with
  | some e => tell e
  | none => pure ()
  return done.answer

/-- Carries out a run that was begun. -/
def execute (tell : Publisher) (run : Run) : Step (Except JobError Snapshot) := do
  match ← inSection tell (·.start run) with
  | .error cause => return .error cause
  | .ok () =>
    let s ← get
    let result := Timeline.run s.setup (MoveId.mint run.generation)
      (fun _ => s.job.isCancelled run.generation) run.program
    inSection tell (·.finish run result)

/-- Binds a program and carries out its run. -/
def load (tell : Publisher) (program : Program) : Step (Except JobError Snapshot) := do
  let run ← inSection tell (·.begin program)
  execute tell run

/-- Carries out a new run of the bound program. -/
def reload (tell : Publisher) : Step (Except JobError Snapshot) := do
  match (← get).job.program with
  | some program => load tell program
  | none => return .error .noProgram

/-- Selects a move that was looked up in the published course. -/
def selectWith (tell : Publisher) (find : Snapshot → Nat → Except IndexError Move) :
    Step (Except IndexError Move) := do
  let job := (← get).job
  match job.snapshot with
  | none => return .error .notReady
  | some snapshot =>
    match find snapshot job.live with
    | .error cause => return .error cause
    | .ok m =>
      tell (.selection ⟨snapshot.generation, m.index, m.line, m.id⟩)
      return .ok m

/-- Selects the move at a place. -/
def select (tell : Publisher) (index : Nat) : Step (Except IndexError Move) :=
  selectWith tell fun snapshot live => snapshot.index.moveAt live index

/-- Selects the move with an identifier. -/
def selectMove (tell : Publisher) (id : MoveId) : Step (Except IndexError Move) :=
  selectWith tell fun snapshot live => do
    snapshot.index.moveAt live (← snapshot.index.indexOf live id)

/-! ## Cursors -/

/-- Gives a cursor a range, unless it is older than the cursor's own. -/
def setRange (tell : Publisher) (id maximum generation : Nat) : Step Unit := do
  match ((← get).cursor id).setRange? maximum generation with
  | none => return
  | some c =>
    modify (·.setCursor id c)
    tell (.playback (.rangeChanged maximum))

/-- Sizes a cursor to the published course and rewinds it; answers the last place. -/
def refresh (tell : Publisher) (id : Nat) : Step Nat := do
  let job := (← get).job
  let (maximum, generation) := match job.snapshot with
    | some snapshot => (snapshot.maxIndex, snapshot.generation)
    | none => (0, job.live)
  setRange tell id maximum generation
  return maximum

/-- Selects a place and puts the cursor there. -/
def landOn (tell : Publisher) (id index : Nat) : Step (Except IndexError Move) := do
  match ← select tell index with
  | .error cause => return .error cause
  | .ok m =>
    modify fun s => s.setCursor id ((s.cursor id).land index)
    return .ok m

/-- Goes to a neighbouring place, if there is one. -/
def landOn? (tell : Publisher) (id : Nat) : Option Nat → Step (Except IndexError (Option Move))
  | none => return .ok none
  | some index => do return (← landOn tell id index).map some

/-- Goes one move on; nothing happens at the end. -/
def stepForward (tell : Publisher) (id : Nat) : Step (Except IndexError (Option Move)) := do
  landOn? tell id ((← get).cursor id).next?

/-- Goes one move back; nothing happens at the start. -/
def stepBack (tell : Publisher) (id : Nat) : Step (Except IndexError (Option Move)) := do
  landOn? tell id ((← get).cursor id).previous?

/-- Goes to a place in the cursor's range. -/
def seek (tell : Publisher) (id index : Nat) : Step (Except IndexError Move) := do
  let maximum := ((← get).cursor id).maximum
  if index > maximum then return .error (.outOfRange index (maximum + 1))
  else landOn tell id index

/-- Switches between playing and paused; answers whether the cursor plays now. -/
def toggle (tell : Publisher) (id : Nat) : Step Bool := do
  let c := (← get).cursor id
  modify (·.setCursor id { c with playing := !c.playing })
  tell (.playback (.playStateChanged !c.playing))
  return !c.playing

/-- Pauses a cursor; only one that plays announces it. -/
def pause (tell : Publisher) (id : Nat) : Step Unit := do
  let c := (← get).cursor id
  if c.playing then
    modify (·.setCursor id { c with playing := false })
    tell (.playback (.playStateChanged false))

/-! ## Announcing -/

/-- Does a deed; answers are dropped. -/
def perform (tell : Publisher) : Deed → Step Unit
  | .cancel => discard (inSection tell Job.cancel)
  | .reset => inSection tell Job.reset
  | .reload => discard (reload tell)
  | .load program => discard (load tell program)
  | .abort => throw .interrupted
  | .pause id => pause tell id
  | .toggle id => discard (toggle tell id)
  | .seek id index => discard (seek tell id index)

/-- A cursor takes the range of every newly published course. -/
def followUp (tell : Publisher) (id : Nat) : Event → Step Unit
  | .job (.processingFinished generation _ moveCount _) =>
    setRange tell id (moveCount - 1) generation
  | _ => pure ()

/-- Calls a listener. A triggered reaction is disarmed before it acts. -/
def call (follow : Nat → Publisher) (act : Deed → Step Unit) (e : Event) : Listener → Step Unit
  | .journal book => modify (·.note book e)
  | .follow id => follow id e
  | .reaction id => do
    match (← get).triggered? id e with
    | none => pure ()
    | some found =>
      modify (·.disarm id)
      act found.deed

/-- One announcement: the event enters the history, the listeners that want it are called, and then
the receivers get it. Answers how many it reached. -/
def deliver (follow : Nat → Publisher) (act : Deed → Step Unit) (e : Event) :
    Step (Except BusError Nat) := do
  modify fun s => { s with bus := s.bus.record e }
  let called := (← get).bus.matching e
  called.forM (call follow act e)
  modify fun s => { s with bus := s.bus.broadcast e }
  return (← get).bus.reached called.length

/-- An announcement whose listeners may announce in turn. A range is announced without following,
since no cursor follows it. -/
def deliverAll (act : Deed → Step Unit) (e : Event) : Step (Except BusError Nat) :=
  deliver (followUp fun inner => discard (deliver (fun _ _ => pure ()) act inner)) act e

/-- Announces an event in a session with at most `n` reactions to come. -/
def announce : Nat → Event → Step (Except BusError Nat)
  | 0, e => deliverAll (fun _ => pure ()) e
  | n + 1, e => deliverAll (perform fun inner => discard (announce n inner)) e

/-- Publishes an event with everything it sets off; answers how many it reached. -/
def publish (e : Event) : Step (Except BusError Nat) := do announce (← get).armed.length e

/-- Announces an event; it does not matter whether anybody listens. -/
def tell : Publisher := fun e => discard (publish e)

/-! ## Files -/

/-- The program of a file that was read; the job fails if it could not be read. -/
def opened (path : String) (content : Except FileError String) : Step (Except JobError Program) := do
  match content with
  | .ok text => return .ok { identity := path, text }
  | .error cause => return .error (← inSection tell (·.failUnreadable path cause.message))

/-- Binds the program of a file that was read and carries out its run. -/
def loadFile (path : String) (content : Except FileError String) :
    Step (Except JobError Snapshot) := do
  match ← opened path content with
  | .ok program => load tell program
  | .error cause => return .error cause

/-! ## Background runs -/

/-- Binds a program and begins its run, which a worker has to carry out. Without a worker nothing
begins. -/
def dispatch (hasWorker : Bool) (program : Program) : Step (Except JobError Run) := do
  if hasWorker then return .ok (← inSection tell (·.begin program)) else return .error .noWorker

/-- Begins a new run of the bound program, which a worker has to carry out. -/
def dispatchReload (hasWorker : Bool) : Step (Except JobError Run) := do
  match hasWorker, (← get).job.program with
  | false, _ => return .error .noWorker
  | true, none => return .error .noProgram
  | true, some program => dispatch true program

/-- Begins the run of a file that was read, which a worker has to carry out. -/
def dispatchFile (path : String) (content : Except FileError String) :
    Step (Except JobError Run) := do
  match ← opened path content with
  | .ok program => dispatch true program
  | .error cause => return .error cause

/-- A run that a worker carries out: an interruption ends only the run, which then counts as
cancelled. -/
def inBackground (run : Run) : Step (Except JobError Snapshot) :=
  tryCatch (execute tell run) fun _ => return .error (.cancelled run.program.identity)

/-- Waits for a run that was dispatched. -/
def awaitRun : Except JobError Run → Step (Except JobError Snapshot)
  | .ok run => inBackground run
  | .error cause => return .error cause

/-! ## Withdrawing -/

/-- Announces the run in flight to give up, and answers whether there was one. -/
def cancel : Step Bool := inSection tell Job.cancel

/-- Drops the program and everything that came of it. -/
def reset : Step Unit := inSection tell Job.reset

/-! ## Listening -/

/-- Adds a listener and gives its subscription. -/
def listen (filter : Filter) (listener : Listener) : Step Nat := do
  let (bus, id) := (← get).bus.subscribe filter listener
  modify fun s => { s with bus }
  return id

/-- Opens a journal of the events that a filter accepts; gives the subscription and the journal. -/
def openJournal (filter : Filter) : Step (Nat × Nat) := do
  let book := (← get).journals.size
  modify fun s => { s with journals := s.journals.push #[] }
  return (← listen filter (.journal book), book)

/-- Arms a reaction and gives its subscription. -/
def arm (trigger : Trigger) (deed : Deed) : Step Nat := do
  let id := (← get).nextReaction
  modify fun s => { s with armed := s.armed ++ [{ id, trigger, deed }], nextReaction := id + 1 }
  listen .all (.reaction id)

/-- Removes a subscription, and returns whether it was there. -/
def unlisten (id : Nat) : Step Bool := do
  let (bus, found) := (← get).bus.unsubscribe id
  modify fun s => { s with bus }
  return found

/-- Adds a cursor, sized to the published course. -/
def newCursor : Step Nat := do
  let id := (← get).cursors.size
  modify fun s => { s with cursors := s.cursors.push {} }
  discard (refresh tell id)
  return id

/-- Makes a cursor follow the job and gives its subscription. -/
def follow (id : Nat) : Step Nat := listen (.categories [.job]) (.follow id)

end Step

end Toolpath
