import Reckoner.Command.Run

/-!
# The command line

Reads the arguments, the environment and the definitions file, and prints what the run leaves behind.
What the program logs is left out: the switch that asks for it is read, and nothing depends on it.
-/

namespace Reckoner

/-- The path of the file that arguments ask for. -/
def requestedPath? (environment : Option String) (arguments : List String) : Option String :=
  match Command.readArguments environment false arguments with
  | .ok (.resolve path) | .ok (.run path _ _) | .ok (.check path) => some path
  | _ => none

/-- The contents of a file, if it can be read as UTF-8. Every error of reading counts as a missing file:
one of permission, for example, or bytes that are no UTF-8, also where they stand in a text of the JSON
that nothing looks at. -/
def contents? (path : String) : IO (Option String) := do
  try
    return some (← IO.FS.readFile path)
  catch _ =>
    return none

end Reckoner

open Reckoner in
/-- Runs the program. -/
def main (arguments : List String) : IO UInt32 := do
  let environment ← IO.getEnv "FORMULARY_DEFS"
  let contents ←
    match requestedPath? environment arguments with
    | some path => contents? path
    | none => pure none
  let output := Command.run (fun _ => contents) environment arguments
  IO.print output.stdout
  IO.eprint output.stderr
  return output.exitCode.toUInt32
