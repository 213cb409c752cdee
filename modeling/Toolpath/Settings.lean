import Toolpath.Bus
import Toolpath.Files
import Toolpath.Json.Printer
import Toolpath.Json.Reader
import Toolpath.Record.Setup
import Toolpath.Text.Blank
import Toolpath.Toml.Printer
import Toolpath.Toml.Reader

/-!
# Settings

`Config`, the settings of the tool in four sections: the machine's setup, the job's events, the cursor's
pace, and logging. They are kept in a JSON or a TOML file, as its name says; what a file leaves out has
its default.

* `JobSettings`, `PlaybackSettings`, `LoggingSettings`, `Settings`: the sections, and `Config`.
  `JobSettings.busConfig` is `event_bus_config`.
* `Settings.problem?`: `Config.validate`, the first value that cannot be used.
* `Settings.toValue`, `Settings.ofValue?`: the serialized form.
* `FileFormat.ofPath`: `Format.of`.
* `Settings.load`, `Settings.loadOrDefault`: `load_from_file` and `load_or_default`.
* `Settings.store`, `Settings.save`: `save_to_file`, the answer with the files afterwards in either case,
  or the files if it succeeds.
-/

namespace Toolpath

open Value

/-- How the job's events are kept. -/
structure JobSettings where
  eventChannelCapacity : Nat := 256
  eventHistory : Bool := false
  eventHistorySize : Nat := 1000
deriving DecidableEq, Repr

/-- The bus of a new job. -/
def JobSettings.busConfig (s : JobSettings) : BusConfig where
  capacity := s.eventChannelCapacity
  keepsHistory := s.eventHistory
  historySize := s.eventHistorySize

/-- How fast a cursor plays. -/
structure PlaybackSettings where
  stepIntervalMs : Nat := 200
deriving DecidableEq, Repr

/-- What is logged, and how. -/
structure LoggingSettings where
  level : String := "info"
  json : Bool := false
deriving DecidableEq, Repr

/-- All settings. -/
structure Settings where
  interpreter : Setup := {}
  job : JobSettings := {}
  playback : PlaybackSettings := {}
  logging : LoggingSettings := {}
deriving BEq, DecidableEq, Repr

/-- The format of a settings file. -/
inductive FileFormat where
  | json | toml
deriving DecidableEq, Repr

/-- Why settings cannot be loaded, used or saved. -/
inductive SettingsError where
  | file (path : String) (cause : FileError)
  | unsupportedFormat (path : String)
  /-- A text of the given format does not hold settings. -/
  | unreadable (format : FileFormat)
  /-- Settings cannot be written in the given format. -/
  | unwritable (format : FileFormat)
  | invalid (key reason : String)
deriving DecidableEq, Repr

/-- The message of a settings error. What is wrong inside a file is not worded. -/
def SettingsError.message : SettingsError → String
  | .file path cause => "I/O error on " ++ path ++ ": " ++ cause.message
  | .unsupportedFormat path =>
    "Unsupported settings format for " ++ path ++ ": expected .json or .toml"
  | .unreadable .json | .unwritable .json => "JSON error"
  | .unreadable .toml | .unwritable .toml => "TOML error"
  | .invalid key reason => s!"Invalid setting '{key}': {reason}"

namespace Settings

/-! ## Values that can be used -/

/-- The levels of logging. -/
def logLevels : List String := ["trace", "debug", "info", "warn", "error"]

/-- The first value that cannot be used, with its key. -/
def problem? (s : Settings) : Option SettingsError :=
  match s.interpreter.problem? with
  | some cause => some (.invalid "interpreter" cause.message)
  | none =>
    if s.job.eventChannelCapacity = 0 then
      some (.invalid "job.event_channel_capacity" "must be > 0")
    else if s.job.eventHistory && s.job.eventHistorySize = 0 then
      some (.invalid "job.event_history_size" "must be > 0 when history is enabled")
    else if s.playback.stepIntervalMs = 0 then
      some (.invalid "playback.step_interval_ms" "must be > 0")
    else if !logLevels.contains (Text.asciiLower s.logging.level) then
      some (.invalid "logging.level" (s!"unknown level '{s.logging.level}', expected one of " ++
        ", ".intercalate logLevels))
    else none

/-- Settings that can be used. -/
def check (s : Settings) : Except SettingsError Settings :=
  match s.problem? with
  | some cause => .error cause
  | none => .ok s

end Settings

/-! ## Data form -/

namespace JobSettings

def keys : List String := ["event_channel_capacity", "event_history", "event_history_size"]

def toValue (s : JobSettings) : Value :=
  .table (keys.zip [.nat s.eventChannelCapacity, .bool s.eventHistory, .nat s.eventHistorySize])

def ofValue? (d : Dialect) (v : Value) : Option JobSettings := do
  let usual : JobSettings := {}
  match ← v.fields? d .defaulted keys with
  | [capacity, history, size] =>
    return ⟨← orDefault? usual.eventChannelCapacity nat? capacity,
      ← orDefault? usual.eventHistory bool? history,
      ← orDefault? usual.eventHistorySize nat? size⟩
  | _ => none

end JobSettings

namespace PlaybackSettings

def keys : List String := ["step_interval_ms"]

def toValue (s : PlaybackSettings) : Value := .table (keys.zip [.nat s.stepIntervalMs])

def ofValue? (d : Dialect) (v : Value) : Option PlaybackSettings := do
  let usual : PlaybackSettings := {}
  match ← v.fields? d .defaulted keys with
  | [interval] => return ⟨← orDefault? usual.stepIntervalMs nat? interval⟩
  | _ => none

end PlaybackSettings

namespace LoggingSettings

def keys : List String := ["level", "json"]

def toValue (s : LoggingSettings) : Value := .table (keys.zip [.string s.level, .bool s.json])

def ofValue? (d : Dialect) (v : Value) : Option LoggingSettings := do
  let usual : LoggingSettings := {}
  match ← v.fields? d .defaulted keys with
  | [level, json] =>
    return ⟨← orDefault? usual.level string? level, ← orDefault? usual.json bool? json⟩
  | _ => none

end LoggingSettings

namespace Settings

def keys : List String := ["interpreter", "job", "playback", "logging"]

/-- The sections in their order. -/
def entries (s : Settings) : List (String × Value) :=
  keys.zip [s.interpreter.toValue, s.job.toValue, s.playback.toValue, s.logging.toValue]

def toValue (s : Settings) : Value := .table s.entries

def ofValue? (d : Dialect) (v : Value) : Option Settings := do
  match ← v.fields? d .defaulted keys with
  | [interpreter, job, playback, logging] =>
    return {
      interpreter := ← orDefault? {} (Setup.ofValue? d) interpreter
      job := ← orDefault? {} (JobSettings.ofValue? d) job
      playback := ← orDefault? {} (PlaybackSettings.ofValue? d) playback
      logging := ← orDefault? {} (LoggingSettings.ofValue? d) logging }
  | _ => none

end Settings

/-! ## Files -/

namespace FileFormat

/-- The format that a file's extension names. -/
def ofPath (path : String) : Except SettingsError FileFormat :=
  match Path.extension? path with
  | some "json" => .ok .json
  | some "toml" => .ok .toml
  | _ => .error (.unsupportedFormat path)

/-- The settings that a text holds. -/
def decode (format : FileFormat) (text : String) : Except SettingsError Settings :=
  let found := match format with
    | .json => (Json.read? text).bind (Settings.ofValue? .json)
    | .toml => (Toml.read? text).bind (Settings.ofValue? .toml)
  match found with
  | some s => .ok s
  | none => .error (.unreadable format)

/-- The text of settings. -/
def encode (format : FileFormat) (s : Settings) : Except SettingsError String :=
  match format with
  | .json => .ok (Json.pretty s.toValue)
  | .toml =>
    match Toml.write? s.entries with
    | some text => .ok text
    | none => .error (.unwritable .toml)

end FileFormat

namespace Settings

/-- Where settings stand below the directory for settings. -/
def fileBelowConfig : String := "nckit/settings.toml"

/-- Words a file error as one of settings. -/
def onFile {α : Type} (path : String) (r : Except FileError α) : Except SettingsError α :=
  match r with
  | .ok a => .ok a
  | .error cause => .error (.file path cause)

/-- Reads settings from a file by a way to read texts; all that it gives can be used. -/
def load (read : String → Except FileError String) (path : String) :
    Except SettingsError Settings := do
  let format ← FileFormat.ofPath path
  let text ← onFile path (read path)
  (← format.decode text).check

/-- Reads settings from a file that was asked for, or else from the usual one. There are the defaults if it is not
there, or if no directory for settings is known. -/
def loadOrDefault (read : String → Except FileError String) (usual asked : Option String) :
    Except SettingsError Settings :=
  match asked, usual with
  | some path, _ => load read path
  | none, none => .ok {}
  | none, some usual =>
    match read usual with
    | .error cause => if cause.isAbsence then .ok {} else load read usual
    | .ok _ => load read usual

/-- The text of settings that can be used, in the format of a file. -/
def textFor (s : Settings) (path : String) : Except SettingsError String := do
  let s ← s.check
  (← FileFormat.ofPath path).encode s

/-- Writes settings to a file and makes the directories it needs: the answer, and the files afterwards. -/
def store (s : Settings) (path : String) (fs : Files) : Except SettingsError Unit × Files :=
  match s.textFor path with
  | .error cause => (.error cause, fs)
  | .ok text =>
    match fs.makeParents path with
    | (.error cause, fs) => (.error (.file path cause), fs)
    | (.ok (), fs) =>
      match fs.write path text.toUTF8 with
      | .error cause => (.error (.file path cause), fs)
      | .ok fs => (.ok (), fs)

/-- The files after settings were written to one of them. -/
def save (s : Settings) (fs : Files) (path : String) : Except SettingsError Files :=
  let (answer, after) := s.store path fs
  answer.map fun _ => after

end Settings

end Toolpath
