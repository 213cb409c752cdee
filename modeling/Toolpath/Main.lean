import Toolpath.CommandLine

/-!
# The program

`main` with its files and its output.

* `readText`: the text of a file, or why there is none.
* `usualSettings`: `Config.default_path`.
* `main`: the whole run.
-/

namespace Toolpath.Main

/-- A failure of the system in the words of this library. -/
def fileError : IO.Error → FileError
  | .noFileOrDirectory _ _ _ => .notFound
  | .inappropriateType _ code details | .permissionDenied _ code details =>
    if code = 21 then .isDirectory
    else if code = 20 then .notDirectory
    else .other (details ++ " (os error " ++ toString code ++ ")")
  | e => .other (toString e)

/-- The text of a file, or why there is none. -/
def readText (path : String) : IO (Except FileError String) := do
  try
    match String.fromUTF8? (← IO.FS.readBinFile path) with
    | some text => return .ok text
    | none => return .error .notText
  catch e => return .error (fileError e)

/-- The usual place of the settings: below the directory that the environment names for them. -/
def usualSettings : IO String := do
  match ← IO.getEnv "XDG_CONFIG_HOME" with
  | some directory =>
    if Path.isAbsolute directory then return directory ++ "/" ++ Settings.fileBelowConfig
  | none => pure ()
  return (← IO.getEnv "HOME").getD "" ++ "/.config/" ++ Settings.fileBelowConfig

/-- Writes one part of the output. -/
def emit : Output → IO Unit
  | .text s => do
    let out ← IO.getStdout
    out.putStr s
    out.flush
  | .pause milliseconds => IO.sleep milliseconds.toUInt32

end Toolpath.Main

open Toolpath Toolpath.Main in
/-- Runs the tool. -/
def main (words : List String) : IO UInt32 := do
  let usual ← usualSettings
  let texts ← (CommandLine.filesRead usual words).mapM fun path => return (path, ← readText path)
  let read (path : String) : Except FileError String :=
    ((texts.find? fun entry => entry.1 = path).map Prod.snd).getD (.error .notFound)
  let outcome := CommandLine.run read usual words
  outcome.output.forM emit
  (← IO.getStderr).putStr outcome.errors
  return outcome.status.toUInt32
