import Reshape.Command.Run

/-!
The program: looks up what a command needs from the system, runs it, and writes what it gives.

Everything is decided by `Command.run`. The environment, standard input and the files that the
invocation names are read beforehand. There is nothing here to send a request with, so a run that
ends with one says so.
-/

namespace Reshape.Main

open Command

/-- The environment variables that are set, of those that a parameter may be set by. -/
def lookUpEnvironment : IO Environment := do
  let names := Subcommand.issue.parameters.filterMap Parameter.environmentName?
  names.filterMapM fun name => return (← IO.getEnv name).map (name, ·)

/-- The fault that an error of the system is. -/
def faultOf : IO.Error → FileFault
  | .noFileOrDirectory .. => .notFound
  | .inappropriateType _ code _ => if code = 21 then .isFolder else .notFolder
  | .invalidArgument _ code details =>
      if code = 36 then .nameTooLong else .other details
  | error => .other (toString error)

/-- Reads a file. -/
def readContents (path : String) : IO (Except FileFault ByteArray) := do
  try
    return .ok (← IO.FS.readBinFile path)
  catch error => return .error (faultOf error)

/-- What the system gives to a run with some arguments. -/
def lookUpSurroundings (arguments : List String) : IO Surroundings := do
  let environment ← lookUpEnvironment
  let (files, readsInput) :=
    match Invocation.read arguments environment with
    | .ok invocation => (invocation.task.files, invocation.task.readsInput)
    | .error _ => ([], false)
  let contents ← files.mapM fun path => do return (path, ← readContents path)
  let standardInput ← if readsInput then (← IO.getStdin).readBinToEnd else pure .empty
  return {
    environment
    contentsOf := fun path => (contents.lookup path).getD (.error .notFound)
    standardInput }

/-- What may be given on the command line. -/
def usage : String :=
  "usage: reshape [--verbose] issue KEY | project | template, and the options of each"

/-- Says how a run has ended, unless it is simply done, and gives its exit code. -/
def conclude : Ending → IO UInt32
  | .done => return 0
  | .failed (.usage .help) | .failed (.usage .version) => do
      IO.println usage
      return 0
  | .failed (.usage _) => do
      IO.eprintln usage
      return 2
  | .failed failure => do
      IO.eprintln ("Error: " ++ String.intercalate ": " failure.chain)
      return 1
  | .request request => do
      IO.eprintln ("Error: there is no way to send a request to " ++ request.url)
      return 1

end Reshape.Main

/-- Runs the command with its arguments. -/
def main (arguments : List String) : IO UInt32 := do
  let outcome := Reshape.Command.run arguments (← Reshape.Main.lookUpSurroundings arguments)
  IO.print outcome.standardOutput
  IO.eprint outcome.standardError
  Reshape.Main.conclude outcome.ending
