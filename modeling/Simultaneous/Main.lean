import Simultaneous.CommandLine.Run
import Simultaneous.Log.Record
import Std.Time.DateTime

/-!
The program: it takes its settings from the environment, reads the equations from where the command
line places them, and writes what a run prints and logs.
-/

namespace Simultaneous.Main

open CommandLine

/-- The settings of the environment. -/
def environment : IO (Attempt Settings) := do
  let names := Settings.readings.map fun (name, _) => "EQSOLVER_" ++ name
  let env ← names.filterMapM fun name => do
    return (← IO.getEnv name).map fun value => (name, value)
  return Settings.ofEnvironment env

def reasonOf : IO.Error → String
  | .noFileOrDirectory .. => "No such file or directory"
  | .permissionDenied .. => "Permission denied"
  | .inappropriateType .. => "Is a directory"
  | e => toString e

def text (s : String) : Found := .text (String.ofList (Text.lineFeeds s.toList))

/-- What is found where the arguments place the equations. -/
def find (a : Arguments) : IO Found := do
  match a.place with
  | .given s => return .text s
  | .file path =>
    try return text (← IO.FS.readFile path)
    catch e => return .unreadable path (reasonOf e)
  | .input =>
    let input ← IO.getStdin
    if ← input.isTty then return .nothing
    return text (← input.readToEnd)

/-- Write log lines with the present time. -/
def writeLog (a : Arguments) (lines : List String) : IO Unit := do
  let now ← Std.Time.Timestamp.now
  let seconds : Rat := now.toNanosecondsSinceUnixEpoch.val / 1000000000
  let stamped := String.join (lines.map fun l => Log.timeText seconds ++ " " ++ l ++ "\n")
  (← IO.getStderr).putStr stamped
  match present? a.logFile with
  | none => return
  | some path => (← IO.FS.Handle.mk path .append).putStr stamped

/-- A seed for runs that are given none. -/
def chance : IO Int := do
  let bytes ← IO.getRandomBytes 16
  return bytes.toList.foldl (fun n b => 256 * n + b.toNat) 0

def execute (settings : Settings) (a : Arguments) : IO UInt32 := do
  let chance ← chance
  let found ← if a.solves then find a else pure .nothing
  writeLog a (logLines settings a chance found)
  let done := run settings a chance found
  IO.print done.output
  match done.failure with
  | none => return done.exitCode.toUInt32
  | some f =>
    IO.eprintln f.message
    return 1

end Simultaneous.Main

open Simultaneous CommandLine in
def main (args : List String) : IO UInt32 := do
  match ← Main.environment with
  | .error f =>
    IO.eprintln f.message
    return 1
  | .ok settings => match readArguments args with
    | .error m =>
      IO.eprintln (Text.join "\n" (usage ++ [usageError m]))
      return 2
    | .ok .help =>
      IO.print (helpText settings)
      return 0
    | .ok (.arguments a) => Main.execute settings a
