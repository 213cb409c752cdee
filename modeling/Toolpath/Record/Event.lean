import Toolpath.Event
import Toolpath.Record.Move

/-!
# Data forms of events

The serialized forms of `AppEvent`, `JobEvent`, `SelectionEvent` and `PlaybackEvent`.

* `Event.toValue`, `Event.ofValue?`: an event under its category and its name.
-/

namespace Toolpath

open Value

namespace Event

/-- What an event carries. -/
def payload : Event → List (String × Value)
  | .job (.loaded generation identity lineCount) =>
    [("generation", .nat generation), ("identity", .string identity), ("line_count", .nat lineCount)]
  | .job (.processingStarted generation identity) =>
    [("generation", .nat generation), ("identity", .string identity)]
  | .job (.processingFinished generation identity moveCount diagnosticCount) =>
    [("generation", .nat generation), ("identity", .string identity), ("move_count", .nat moveCount),
      ("diagnostic_count", .nat diagnosticCount)]
  | .job (.processingFailed generation identity reason) =>
    [("generation", .nat generation), ("identity", .string identity), ("reason", .string reason)]
  | .selection selected =>
    [("generation", .nat selected.generation), ("index", .nat selected.index),
      ("line", .nat selected.line), ("move_id", .string selected.id.text)]
  | .playback (.playStateChanged playing) => [("playing", .bool playing)]
  | .playback (.rangeChanged maximum) => [("maximum", .nat maximum)]
  | .job .reset | .playback .reachedEnd => []

/-- An event under its name; one that carries nothing is only its name. -/
def toValue (e : Event) : Value :=
  let inner := if e.payload.isEmpty then .string e.name else .table [(e.name, .table e.payload)]
  .table [(e.category.name, inner)]

end Event

namespace JobEvent

def ofValue? (d : Dialect) (v : Value) : Option JobEvent :=
  match v.variant? with
  | some ("Loaded", some payload) => do
    match ← payload.fields? d .full ["generation", "identity", "line_count"] with
    | [generation, identity, lineCount] =>
      return .loaded (← need? nat? generation) (← need? string? identity) (← need? nat? lineCount)
    | _ => none
  | some ("ProcessingStarted", some payload) => do
    match ← payload.fields? d .full ["generation", "identity"] with
    | [generation, identity] =>
      return .processingStarted (← need? nat? generation) (← need? string? identity)
    | _ => none
  | some ("ProcessingFinished", some payload) => do
    match ← payload.fields? d .full ["generation", "identity", "move_count", "diagnostic_count"] with
    | [generation, identity, moveCount, diagnosticCount] =>
      return .processingFinished (← need? nat? generation) (← need? string? identity)
        (← need? nat? moveCount) (← need? nat? diagnosticCount)
    | _ => none
  | some ("ProcessingFailed", some payload) => do
    match ← payload.fields? d .full ["generation", "identity", "reason"] with
    | [generation, identity, reason] =>
      return .processingFailed (← need? nat? generation) (← need? string? identity)
        (← need? string? reason)
    | _ => none
  | _ => named? d [JobEvent.reset] (fun _ => "Reset") v

end JobEvent

namespace Selected

def ofValue? (d : Dialect) (v : Value) : Option Selected :=
  match v.variant? with
  | some ("MoveSelected", some payload) => do
    match ← payload.fields? d .full ["generation", "index", "line", "move_id"] with
    | [generation, index, line, id] =>
      return ⟨← need? nat? generation, ← need? nat? index, ← need? nat? line,
        ← need? MoveId.ofValue? id⟩
    | _ => none
  | _ => none

end Selected

namespace PlaybackEvent

def ofValue? (d : Dialect) (v : Value) : Option PlaybackEvent :=
  match v.variant? with
  | some ("PlayStateChanged", some payload) => do
    match ← payload.fields? d .full ["playing"] with
    | [playing] => return .playStateChanged (← need? bool? playing)
    | _ => none
  | some ("RangeChanged", some payload) => do
    match ← payload.fields? d .full ["maximum"] with
    | [maximum] => return .rangeChanged (← need? nat? maximum)
    | _ => none
  | _ => named? d [PlaybackEvent.reachedEnd] (fun _ => "ReachedEnd") v

end PlaybackEvent

/-- Reads an event. -/
def Event.ofValue? (d : Dialect) (v : Value) : Option Event :=
  match v.variant? with
  | some ("Job", some payload) => (JobEvent.ofValue? d payload).map .job
  | some ("Selection", some payload) => (Selected.ofValue? d payload).map .selection
  | some ("Playback", some payload) => (PlaybackEvent.ofValue? d payload).map .playback
  | _ => none

end Toolpath
