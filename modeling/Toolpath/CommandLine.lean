import Toolpath.CommandLine.Arguments
import Toolpath.Playback
import Toolpath.Settings

/-!
# The command line

What `main` does with its arguments: it reads settings and a program, writes a report, and may select a
move and play the whole course.

* `Outcome`: what is written, and the exit status.
* `Failure.text`: a failure with its causes, as `main` reports an error that it returns.
* `CommandLine.process`: `load_file` and `wait`. `CommandLine.play`: the part of `main` under `--play`.
* `CommandLine.answer`: `main`, given its arguments.
* `CommandLine.run`: `main`, given the words of the command line.
-/

namespace Toolpath

/-- A part of what a run writes. -/
inductive Output where
  | text (s : String)
  /-- Nothing is written for a while. -/
  | pause (milliseconds : Nat)
deriving DecidableEq, Repr

/-- What a run writes, and its exit status. -/
structure Outcome where
  status : Nat := 0
  output : List Output := []
  /-- What is written to the error stream in the end. -/
  errors : String := ""
deriving DecidableEq, Repr

/-- All texts of the output. -/
def Outcome.written (o : Outcome) : String :=
  String.join (o.output.map fun
    | .text s => s
    | .pause _ => "")

/-- What was attempted when a run failed, and the causes from the nearest on. -/
structure Failure where
  attempt : String
  causes : List String
deriving DecidableEq, Repr

namespace Failure

/-- A cause after a mark, its further lines below the first. -/
def indented (mark : String) (cause : String) : String :=
  let indent := String.ofList (List.replicate mark.length ' ')
  mark ++ ("\n" ++ indent).intercalate ((Text.splitOn '\n' cause.toList).map String.ofList) ++ "\n"

/-- The causes on lines of their own, with numbers if there are several. -/
def causeLines : List String → String
  | [cause] => indented "    " cause
  | causes => String.join (causes.mapIdx fun i cause => indented s!"    {i}: " cause)

/-- A failure with its causes. -/
def text (f : Failure) : String :=
  "Error: " ++ f.attempt ++ "\n\nCaused by:\n" ++ causeLines f.causes

end Failure

/-- A settings error with the causes behind it. -/
def SettingsError.causes (e : SettingsError) : List String :=
  match e with
  | .file _ cause => [e.message, cause.message]
  | _ => [e.message]

namespace CommandLine

/-- A run that goes on until it fails, with what it has written. -/
abbrev Running := ExceptT Outcome (StateM (List Output))

/-- Writes a text. -/
def write (s : String) : Running Unit := modify (· ++ [.text s])

/-- Ends a run early. -/
def quit {α : Type} (status : Nat) (errors : String) : Running α := do
  throw { status, output := ← get, errors }

/-- The value of an attempt; its failure ends the run. -/
def attempt {α ε : Type} (what : String) (causes : ε → List String) : Except ε α → Running α
  | .ok a => return a
  | .error cause => quit 1 (Failure.text ⟨what, causes cause⟩)

/-- Performs an operation on a session. -/
def perform {α : Type} (s : Session) (step : Step α) : Running (α × Session) :=
  match ExceptT.run step s with
  | (.ok a, next) => return (a, next)
  | (.error _, _) => quit 101 "Interrupted\n"

/-- Loads a program that was read. -/
def process (s : Session) (path : String) (content : Except FileError String) :
    Running (Snapshot × Session) := do
  let (dispatched, s) ← perform s (Step.dispatchFile path content)
  let run ← attempt ("Failed to read " ++ path) (fun e => [e.message]) dispatched
  let (finished, s) ← perform s (Step.inBackground run)
  let snapshot ← attempt ("Failed to process " ++ path) (fun e => [e.message]) finished
  return (snapshot, s)

/-- The moves whose selections a journal holds. -/
def selectedMoves (snapshot : Snapshot) (journal : Array Event) : List Move :=
  journal.toList.filterMap fun
    | .selection selected => snapshot.moves[selected.index]?
    | _ => none

def playLine (m : Move) : Output := .text ("play " ++ Report.moveLine m ++ "\n")

/-- Plays the course from its first move to its last, and writes each move that is selected on the
way. -/
def play (interval : Nat) (snapshot : Snapshot) (s : Session) : Running Unit := do
  let lost := "Playback lost its move list"
  let ((subscription, book), s) ← perform s (Step.openJournal (.categories [.selection]))
  let shown (s : Session) := selectedMoves snapshot (s.journals.getD book #[])
  let (cursor, s) ← perform s Step.newCursor
  let (found, s) ← perform s (Step.seek Step.tell cursor 0)
  modify (· ++ (shown s).map playLine)
  let _ ← attempt lost (fun e => [e.message]) found
  let before := (shown s).length
  let (_, s) ← perform s (Step.toggle Step.tell cursor)
  let (result, s) ← perform s (Step.playEvery interval cursor)
  modify (· ++ ((shown s).drop before).flatMap fun m => [.pause interval, playLine m])
  match result.failure with
  | some cause => quit 1 (Failure.text ⟨lost, [cause.message]⟩)
  | none => discard (perform s (Step.unlisten subscription))

/-- A run, given its arguments, a way to read texts and the usual place of settings. -/
def answer (read : String → Except FileError String) (usual : String) (a : Arguments) :
    Running Unit := do
  let settings ← attempt "Failed to load settings" SettingsError.causes
    (Settings.loadOrDefault read usual a.config)
  let session : Session := { setup := settings.interpreter, bus := { config := settings.job.busConfig } }
  let (snapshot, s) ← process session a.file (read a.file)
  write (Report.render a.format snapshot)
  let s ← match a.select with
    | none => pure s
    | some index =>
      let (found, s) ← perform s (Step.select Step.tell index)
      let m ← attempt s!"Cannot select move {index}" (fun e => [e.message]) found
      write ("selected " ++ Report.moveLine m ++ "\n")
      pure s
  if a.play && snapshot.moveCount ≠ 0 then
    play (a.intervalMs.getD settings.playback.stepIntervalMs) snapshot s

/-- What a run comes to. -/
def outcome (r : Running Unit) : Outcome :=
  match ExceptT.run r [] with
  | (.ok (), output) => { output }
  | (.error ended, _) => ended

/-- A run, given the words of the command line. -/
def run (read : String → Except FileError String) (usual : String) (words : List String) : Outcome :=
  match Arguments.read words with
  | .ok a => outcome (answer read usual a)
  | .error .help => { output := [.text Arguments.help] }
  | .error .version => { output := [.text Arguments.version] }
  | .error .misuse => { status := 2, errors := "error: the arguments cannot be used\n\n" ++ Arguments.help }

/-- The files that a run may read, given the words of the command line. -/
def filesRead (usual : String) (words : List String) : List String :=
  match Arguments.read words with
  | .ok a => [a.config.getD usual, a.file]
  | .error _ => []

end CommandLine

end Toolpath
