import JvmFrames.CommandLine

/-!
The executable: it finds the input file, runs the command on its text and passes the outcome on.
-/

namespace JvmFrames

def readInput (path : String) : IO (Option String) := do
  try
    return some (← IO.FS.readFile path)
  catch _ =>
    return none

def finish (outcome : Outcome) : IO UInt32 := do
  IO.print outcome.output
  IO.eprint outcome.errors
  return outcome.exitCode.toUInt32

end JvmFrames

open JvmFrames in
def main (arguments : List String) : IO UInt32 := do
  let options := Options.ofArguments arguments
  match options.inputs with
  | [] => finish (CommandLine.fail "" (.argument .missingListing))
  | path :: _ => finish (CommandLine.run options (← readInput path))
