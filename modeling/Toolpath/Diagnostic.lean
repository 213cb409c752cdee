import Toolpath.Modal
import Toolpath.Token

/-!
# Diagnostics

What went wrong, and where. Every diagnostic carries its cause; kind, severity and wording follow from
it.

* `BlockError`: `ParseError`, why a word of a line is refused.
* `MotionError`: `SimulationError`, why the machine refuses a command.
* `JobError`: why a run of a program gives no result.
* `DiagnosticKind`, `Severity`: the classes of diagnostics.
* `Cause`: what the constructors of `Diagnostic` are called with: `lex`, `parse`, `parse_warning`,
  `simulation`, `simulation_warning` and `job`.
* `Diagnostic`: a cause with its line, if it has one, with `is_error` and its `Display` text.
-/

namespace Toolpath

/-- Why a word of a line is refused, or a code misses a word. -/
inductive BlockError where
  | lex (cause : LexError)
  | unknownCode (letter : Char) (code : String)
  | conflictingCodes (group first second : String)
  | duplicateWord (letter : Char)
  | invalidValue (letter : Char) (value : Float) (reason : String)
  | missingWord (code : String) (letter : Char)
  | unexpectedWord (letter : Char) (reason : String)
deriving DecidableEq, Repr

/-- The message of a block error. -/
def BlockError.message : BlockError → String
  | .lex cause => cause.message
  | .unknownCode letter code => s!"Unknown code {letter}{code}"
  | .conflictingCodes group first second =>
    s!"{first} and {second} of group '{group}' cannot be used together"
  | .duplicateWord letter => s!"Duplicate '{letter}' word"
  | .invalidValue letter value reason =>
    s!"Invalid value {Number.plain value} for '{letter}': {reason}"
  | .missingWord code letter => s!"{code} needs a '{letter}' word"
  | .unexpectedWord letter reason => s!"'{letter}' word is not valid here: {reason}"

/-- Why the machine refuses a command. -/
inductive MotionError where
  | arcUnderspecified
  | invalidArcWord (word : Char) (plane : Plane)
  | arcRadiusMismatch (startRadius endRadius : Float)
  | arcRadiusTooSmall (radius chord : Float)
  | arcFullCircleRadius
  | arcZeroRadius
  | nonFinitePosition (axis : Axis)
deriving DecidableEq, Repr

/-- The message of a motion error. -/
def MotionError.message : MotionError → String
  | .arcUnderspecified => "Arc needs center offsets or a radius"
  | .invalidArcWord word plane => s!"Arc word {word} is not allowed in the {plane.text}"
  | .arcRadiusMismatch startRadius endRadius =>
    "Arc radius mismatch: start radius " ++ Number.fixed 4 startRadius ++ ", end radius " ++
      Number.fixed 4 endRadius
  | .arcRadiusTooSmall radius chord =>
    "Arc radius " ++ Number.fixed 4 radius ++ " is too small for chord length " ++
      Number.fixed 4 chord
  | .arcFullCircleRadius => "Radius-form arc cannot describe a full circle"
  | .arcZeroRadius => "Arc has zero radius"
  | .nonFinitePosition axis => s!"Axis {axis.letter} would move to a non-finite position"

/-- Why a run of a program gives no result. -/
inductive JobError where
  | cancelled (identity : String)
  | superseded (generation : Nat)
  | unreadable (identity reason : String)
  | noProgram
  | noWorker
deriving DecidableEq, Repr

/-- The message of a job error. -/
def JobError.message : JobError → String
  | .cancelled identity => s!"Processing of '{identity}' was cancelled"
  | .superseded generation => s!"Processing run {generation} was superseded"
  | .unreadable identity reason => s!"Cannot read program '{identity}': {reason}"
  | .noProgram => "No program loaded"
  | .noWorker => "No async runtime available for background processing"

/-- The part of the program's treatment that a diagnostic comes from. -/
inductive DiagnosticKind where
  | lex | parse | simulation | cancellation | io
deriving DecidableEq, Repr

def DiagnosticKind.name : DiagnosticKind → String
  | .lex => "lex"
  | .parse => "parse"
  | .simulation => "simulation"
  | .cancellation => "cancellation"
  | .io => "io"

/-- Whether something was left out, or only looks odd. -/
inductive Severity where
  | warning | error
deriving DecidableEq, Repr

def Severity.name : Severity → String
  | .warning => "warning"
  | .error => "error"

/-- What a diagnostic reports. -/
inductive Cause where
  | block (cause : BlockError)
  /-- A radius stands beside center offsets. -/
  | ignoredRadius
  | motion (cause : MotionError)
  /-- The program moves on after its end. -/
  | motionAfterEnd
  | job (cause : JobError)
deriving DecidableEq, Repr

namespace Cause

def kind : Cause → DiagnosticKind
  | .block (.lex _) => .lex
  | .block _ | .ignoredRadius => .parse
  | .motion _ | .motionAfterEnd => .simulation
  | .job (.unreadable _ _) => .io
  | .job _ => .cancellation

def severity : Cause → Severity
  | .ignoredRadius | .motionAfterEnd => .warning
  | .block _ | .motion _ | .job _ => .error

def message : Cause → String
  | .block cause => cause.message
  | .ignoredRadius => "R word ignored, arc center offsets take precedence"
  | .motion cause => cause.message
  | .motionAfterEnd => "motion after program end"
  | .job cause => cause.message

end Cause

/-- A problem with the line it was found on; lines count from zero. -/
structure Diagnostic where
  line : Option Nat
  cause : Cause
deriving DecidableEq, Repr

namespace Diagnostic

/-- A problem on a line. -/
def onLine (line : Nat) (cause : Cause) : Diagnostic := ⟨some line, cause⟩

/-- A problem of a whole run. -/
def ofJob (cause : JobError) : Diagnostic := ⟨none, .job cause⟩

def isError (d : Diagnostic) : Bool := d.cause.severity = .error

/-- A diagnostic as it is shown; lines are shown from one. -/
def text (d : Diagnostic) : String :=
  let place := match d.line with
    | some line => s!"line {line + 1}: "
    | none => ""
  place ++ d.cause.kind.name ++ " " ++ d.cause.severity.name ++ ": " ++ d.cause.message

end Diagnostic

end Toolpath
