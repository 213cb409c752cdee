import Toolpath.Report

/-!
# Arguments

`Cli` and `Cli.parse`. Words are taken from left to right, and the first that asks for help or the
version, or that cannot be taken, decides.

* `Flag`: the options of `Cli`, with their names.
* `Arguments`: `Cli`.
* `Draft.take`: one option with its value. An option may be given once.
* `Arguments.read`: `Cli.parse`, all words.
* `Arguments.help`, `Arguments.version`: the texts that can be asked for.
-/

namespace Toolpath

/-- An option of the command line. -/
inductive Flag where
  | config | format | select | play | intervalMs | logJson | help | version
deriving DecidableEq, Repr

namespace Flag

def all : List Flag := [.config, .format, .select, .play, .intervalMs, .logJson, .help, .version]

/-- The name after two hyphens. -/
def name : Flag → String
  | .config => "config"
  | .format => "format"
  | .select => "select"
  | .play => "play"
  | .intervalMs => "interval-ms"
  | .logJson => "log-json"
  | .help => "help"
  | .version => "version"

/-- The letter after one hyphen. -/
def letter? : Flag → Option Char
  | .help => some 'h'
  | .version => some 'V'
  | _ => none

/-- Whether a value belongs to the option. -/
def takesValue : Flag → Bool
  | .config | .format | .select | .intervalMs => true
  | _ => false

def ofName? (name : String) : Option Flag := all.find? fun f => f.name = name

def ofLetter? (letter : Char) : Option Flag := all.find? fun f => f.letter? = some letter

end Flag

/-- What a run of the tool is asked to do. -/
structure Arguments where
  file : String
  config : Option String := none
  format : ReportFormat := .text
  select : Option Nat := none
  play : Bool := false
  intervalMs : Option Nat := none
  logJson : Bool := false
deriving DecidableEq, Repr

/-- Why the words of a command line lead to no run. -/
inductive NoRun where
  /-- The words cannot be taken. -/
  | misuse
  | help
  | version
deriving DecidableEq, Repr

namespace Arguments

/-- The words that were taken so far. -/
structure Draft where
  file : Option String := none
  config : Option String := none
  format : Option ReportFormat := none
  select : Option Nat := none
  play : Bool := false
  intervalMs : Option Nat := none
  logJson : Bool := false
deriving DecidableEq, Repr

/-- A path; there is none without a name. -/
def path? (text : String) : Option String := if text = "" then none else some text

/-- A natural number of 64 bits; a plus sign may stand in front. -/
def number? (text : String) : Option Nat :=
  let digits := match text.toList with
    | '+' :: rest => rest
    | cs => cs
  if digits.isEmpty || !digits.all Char.isDigit then none
  else
    let n := digits.foldl (fun n c => 10 * n + (c.toNat - '0'.toNat)) 0
    if n < Number.twoTo 64 then some n else none

namespace Draft

/-- Fills a place that is empty. -/
def fill {α : Type} (place : Option α) (value : Option α) : Except NoRun (Option α) :=
  match place, value with
  | none, some a => .ok (some a)
  | _, _ => .error .misuse

/-- Sets a switch that is not set. -/
def switch (place : Bool) : Except NoRun Bool := if place then .error .misuse else .ok true

/-- Takes the program file. -/
def takeFile (d : Draft) (text : String) : Except NoRun Draft := do
  return { d with file := ← fill d.file (path? text) }

/-- Takes an option with its value, which is empty for one that has none. -/
def take (d : Draft) (flag : Flag) (value : String) : Except NoRun Draft := do
  match flag with
  | .config => return { d with config := ← fill d.config (path? value) }
  | .format => return { d with format := ← fill d.format (ReportFormat.parse value).toOption }
  | .select => return { d with select := ← fill d.select (number? value) }
  | .intervalMs => return { d with intervalMs := ← fill d.intervalMs (number? value) }
  | .play => return { d with play := ← switch d.play }
  | .logJson => return { d with logJson := ← switch d.logJson }
  | .help => .error .help
  | .version => .error .version

/-- The arguments, once all words are taken. -/
def finish (d : Draft) : Except NoRun Arguments :=
  match d.file with
  | none => .error .misuse
  | some file =>
    .ok { file, config := d.config, format := d.format.getD .text, select := d.select, play := d.play,
          intervalMs := d.intervalMs, logJson := d.logJson }

end Draft

/-- What a word is. -/
inductive Word where
  | operand (text : String)
  /-- After this only operands follow. -/
  | endOfOptions
  | option (flag : Flag) (attached : Option String)
  | unknown
deriving DecidableEq, Repr

namespace Word

/-- An option by its name, with a value after an equals sign. -/
def ofLong (text : List Char) : Word :=
  let attached := match text.dropWhile (· ≠ '=') with
    | _ :: value => some (String.ofList value)
    | [] => none
  match Flag.ofName? (String.ofList (text.takeWhile (· ≠ '='))) with
  | some flag => .option flag attached
  | none => .unknown

/-- An option by its letter. The options with letters end the reading, so what follows the letter does
not matter. -/
def ofLetters (letter : Char) : Word :=
  match Flag.ofLetter? letter with
  | some flag => .option flag none
  | none => .unknown

/-- What a word is; a single hyphen is an operand. -/
def classify (text : String) : Word :=
  match text.toList with
  | ['-', '-'] => .endOfOptions
  | '-' :: '-' :: long => ofLong long
  | '-' :: letter :: _ => ofLetters letter
  | _ => .operand text

end Word

/-- Takes words one after the other, the first for the option that waits for its value, if one
does. -/
def readFrom : Draft → Option Flag → List String → Except NoRun Draft
  | d, none, [] => .ok d
  | _, some _, [] => .error .misuse
  | d, some flag, word :: words =>
    match Word.classify word with
    | .operand value => do readFrom (← d.take flag value) none words
    | _ => .error .misuse
  | d, none, word :: words =>
    match Word.classify word with
    | .operand text => do readFrom (← d.takeFile text) none words
    | .endOfOptions => words.foldlM Draft.takeFile d
    | .unknown => .error .misuse
    | .option flag attached =>
      match flag.takesValue, attached with
      | true, none => readFrom d (some flag) words
      | true, some value => do readFrom (← d.take flag value) none words
      | false, none => do readFrom (← d.take flag "") none words
      | false, some _ => .error .misuse

/-- What the words of a command line ask for. -/
def read (words : List String) : Except NoRun Arguments := do (← readFrom {} none words).finish

/-! ## Texts -/

def version : String := "nckit 0.1.0\n"

/-- A line of the help: what is written, and what it means. -/
def helpLine (width : Nat) (written meaning : String) : String :=
  written ++ String.ofList (List.replicate (width - written.length) ' ') ++ meaning ++ "\n"

/-- The options as they are written, with their meanings. -/
def optionHelp : List (String × String) :=
  [("      --config <CONFIG>",
      "Settings file (.toml or .json); defaults to the platform config dir"),
    ("      --format <FORMAT>", "Report format: text or json [default: text]"),
    ("      --select <SELECT>", "Select the move at this index after processing"),
    ("      --play", "Step through every move with the playback cursor"),
    ("      --interval-ms <INTERVAL_MS>", "Milliseconds between steps while playing"),
    ("      --log-json", "Emit logs as JSON lines"),
    ("  -h, --help", "Print help"),
    ("  -V, --version", "Print version")]

def help : String :=
  "Interpret an NC program and list the machine moves it produces\n\n" ++
    "Usage: nckit [OPTIONS] <FILE>\n\n" ++
    "Arguments:\n" ++ helpLine 10 "  <FILE>" "NC program to interpret (.nc, .tap)" ++ "\n" ++
    "Options:\n" ++ String.join (optionHelp.map fun (written, meaning) => helpLine 35 written meaning)

end Arguments

end Toolpath
