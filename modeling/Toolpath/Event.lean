import Toolpath.MoveId

/-!
# Events

What a job, a selection or a playing cursor publishes.

* `JobEvent`, `Selected` (`SelectionEvent`), `PlaybackEvent`: the three families.
* `Event`: `AppEvent`, with its `category` (`EventCategory`), its `kind` and its `description`.
* `Filter`: `EventFilter`, with `matches` (`Filter.accepts`).
-/

namespace Toolpath

/-- What a job announces. -/
inductive JobEvent where
  | loaded (generation : Nat) (identity : String) (lineCount : Nat)
  | processingStarted (generation : Nat) (identity : String)
  | processingFinished (generation : Nat) (identity : String) (moveCount diagnosticCount : Nat)
  | processingFailed (generation : Nat) (identity reason : String)
  | reset
deriving DecidableEq, Repr

/-- A move that was selected. -/
structure Selected where
  generation : Nat
  index : Nat
  line : Nat
  id : MoveId
deriving DecidableEq, Repr

/-- What a cursor announces. -/
inductive PlaybackEvent where
  | playStateChanged (playing : Bool)
  | rangeChanged (maximum : Nat)
  | reachedEnd
deriving DecidableEq, Repr

/-- An announcement. -/
inductive Event where
  | job (event : JobEvent)
  | selection (selected : Selected)
  | playback (event : PlaybackEvent)
deriving DecidableEq, Repr

/-- Where an event comes from. -/
inductive Category where
  | job | selection | playback
deriving DecidableEq, Repr

namespace Category

def all : List Category := [.job, .selection, .playback]

def name : Category → String
  | .job => "Job"
  | .selection => "Selection"
  | .playback => "Playback"

end Category

/-- The kinds of events. -/
inductive EventKind where
  | loaded | processingStarted | processingFinished | processingFailed | reset
  | moveSelected
  | playStateChanged | rangeChanged | reachedEnd
deriving DecidableEq, Repr

namespace EventKind

def all : List EventKind :=
  [.loaded, .processingStarted, .processingFinished, .processingFailed, .reset, .moveSelected,
    .playStateChanged, .rangeChanged, .reachedEnd]

def name : EventKind → String
  | .loaded => "Loaded"
  | .processingStarted => "ProcessingStarted"
  | .processingFinished => "ProcessingFinished"
  | .processingFailed => "ProcessingFailed"
  | .reset => "Reset"
  | .moveSelected => "MoveSelected"
  | .playStateChanged => "PlayStateChanged"
  | .rangeChanged => "RangeChanged"
  | .reachedEnd => "ReachedEnd"

end EventKind

namespace Event

def category : Event → Category
  | .job _ => .job
  | .selection _ => .selection
  | .playback _ => .playback

/-- The kind of an event. -/
def kind : Event → EventKind
  | .job (.loaded _ _ _) => .loaded
  | .job (.processingStarted _ _) => .processingStarted
  | .job (.processingFinished _ _ _ _) => .processingFinished
  | .job (.processingFailed _ _ _) => .processingFailed
  | .job .reset => .reset
  | .selection _ => .moveSelected
  | .playback (.playStateChanged _) => .playStateChanged
  | .playback (.rangeChanged _) => .rangeChanged
  | .playback .reachedEnd => .reachedEnd

def name (e : Event) : String := e.kind.name

/-- An event in a few words. -/
def description : Event → String
  | .job (.loaded _ identity lineCount) => s!"Loaded {identity} ({lineCount} lines)"
  | .job (.processingStarted generation identity) => s!"Processing {identity} (run {generation})"
  | .job (.processingFinished _ identity moveCount diagnosticCount) =>
    s!"Processed {identity}: {moveCount} moves, {diagnosticCount} diagnostics"
  | .job (.processingFailed _ identity reason) => s!"Processing {identity} failed: {reason}"
  | .job .reset => "Job reset"
  | .selection selected => s!"Selected move {selected.index} (line {selected.line})"
  | .playback (.playStateChanged true) => "Playback started"
  | .playback (.playStateChanged false) => "Playback paused"
  | .playback (.rangeChanged maximum) => s!"Playback range 0..={maximum}"
  | .playback .reachedEnd => "Playback reached end"

end Event

/-- The events that a listener wants. -/
inductive Filter where
  | all
  | categories (wanted : List Category)
deriving DecidableEq, Repr

def Filter.accepts (f : Filter) (e : Event) : Bool :=
  match f with
  | .all => true
  | .categories wanted => wanted.contains e.category

end Toolpath
