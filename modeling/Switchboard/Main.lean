import Switchboard.Cli.Run

/-!
# The command

The command reads its environment and the configuration file, and does what its command line amounts
to. It has no transport of its own: attaching to the local router ends as it does on a host that
has no network.
-/

namespace Switchboard.Cli

/-- Why reading a file failed. A folder is found out without its name, in the middle of reading;
of the invalid names, those with a NUL have the code 22. -/
def faultOf : IO.Error → FileFault
  | .inappropriateType none .. => .isFolder
  | .inappropriateType (some _) .. => .notFolder
  | .permissionDenied .. => .denied
  | .invalidArgument _ 22 _ => .nulInName
  | .invalidArgument .. => .nameTooLong
  | _ => .notFound

/-- What reading a file gives. -/
def readFile (path : String) : IO (Except FileFault (List UInt8)) := do
  try
    return .ok (← IO.FS.readBinFile path).toList
  catch e => return .error (faultOf e)

/-- The environment variables that the command looks at, with their values. -/
def readEnvironment : IO (List (String × String)) :=
  Setting.all.filterMapM fun s => do
    return (← IO.getEnv s.variableName).map (s.variableName, ·)

/-- The outcome of a command line. -/
def run (arguments : List String) : IO Outcome := do
  let settings ← readEnvironment
  let env := fun name => settings.lookup name
  let content ← match Options.read arguments env with
    | .ok { config := some path, .. } => readFile path
    | _ => pure (.error .notFound)
  match plan arguments env (fun _ => content) with
  | .done outcome => return outcome
  | .attach _ router => return detached router (.connectFailed router .unreachable)

end Switchboard.Cli

/-- Runs the command. -/
def main (arguments : List String) : IO UInt32 := do
  let outcome ← Switchboard.Cli.run arguments
  (← IO.getStdout).putStr outcome.stdout
  (← IO.getStderr).putStr outcome.stderr
  return UInt32.ofNat outcome.exitCode
