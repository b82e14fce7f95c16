import ReplicaControl.Command
import ReplicaControl.Command.Invocation
import ReplicaControl.Document.Render

/-!
# The command line

* `main` — reads the files that the arguments name, and prints the document of the command, or the
  failure on the error output.
-/

namespace ReplicaControl.CommandLine

/-- The text of a file, if it can be read. -/
def readText (file : String) : IO (Option String) := do
  try
    return some (← IO.FS.readFile file)
  catch _ =>
    return none

/-- The texts of the files of an invocation, given to its command. -/
def perform : Invocation → IO (Except Command.Failure Document)
  | .checkConfig config => do
    return Command.checkConfig (← readText config)
  | .simulate cluster config rounds => do
    let configText ← config.mapM readText
    return Command.simulate configText (← readText cluster) rounds

end ReplicaControl.CommandLine

/-- Runs the command that the arguments ask for. -/
def main (arguments : List String) : IO UInt32 := do
  match ReplicaControl.Invocation.read? arguments with
  | none =>
    IO.eprintln ReplicaControl.Invocation.usage
    return 2
  | some invocation =>
    match ← ReplicaControl.CommandLine.perform invocation with
    | .ok d =>
      IO.println d.render
      return 0
    | .error e =>
      IO.eprintln ("Error: " ++ e.message)
      return 1
