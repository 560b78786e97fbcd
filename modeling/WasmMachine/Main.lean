/-
# The executable

Reads the arguments, the environment and the file, runs the command and writes
its outcome.
-/

import WasmMachine.CommandLine.Run
import WasmMachine.CommandLine.Settings

namespace WasmMachine.CommandLine

/-- The read error behind a failure of the system. -/
def readError : IO.Error → ReadError
  | .noFileOrDirectory _ _ _ => .missing
  | .inappropriateType _ 20 _ => .notDirectory
  | .inappropriateType _ _ _ => .isDirectory
  | .permissionDenied _ _ _ => .other "permission denied"
  | e => .other (toString e)

/-- The contents of a file. -/
def readContents (path : String) : IO (Except ReadError (List UInt8)) := do
  try
    let bytes ← IO.FS.readBinFile path
    return .ok bytes.toList
  catch e => return .error (readError e)

/-- Everything that a run of the command depends on. -/
def gather (args : List String) : IO Request := do
  let settings ← (Setting.all.map (·.name)).filterMapM fun name => do
    return (← IO.getEnv name).map fun value => (name, value)
  let contents ← args.mapM fun path => do return (path, ← readContents path)
  return {
    args := args
    environment := fun name => settings.lookup name
    file := fun path => (contents.lookup path).getD (.error .missing)
    terminal := ← (← IO.getStdout).isTty }

end WasmMachine.CommandLine

open WasmMachine WasmMachine.CommandLine in
/-- Run the command with real arguments. -/
def main (args : List String) : IO UInt32 := do
  let request ← gather args
  match run Run.ampleFuel (Config.ofEnvironment .usual) request with
  | .ok outcome =>
      IO.print outcome.output
      IO.eprint outcome.errors
      return outcome.status.toUInt32
  | .error _ => return 4
