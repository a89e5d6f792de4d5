import FlatSchema.CommandLine.Outcome

open FlatSchema CommandLine

/-- The text of a file, if it can be read as text. -/
def readTextFile (file : String) : IO (Option String) := do
  try
    let contents ← IO.FS.readBinFile file
    return String.fromUTF8? contents
  catch _ => return none

/-- Runs the program on the files that there are. -/
def outcomeOfArguments (args : List String) : IO Outcome := do
  match parse args with
  | .ok i =>
    let contents ← readTextFile i.file
    return outcomeOf (i.answer contents)
  | .error stop => return stop.outcome

def main (args : List String) : IO UInt32 := do
  let outcome ← outcomeOfArguments args
  IO.print outcome.stdout
  IO.eprint outcome.stderr
  return outcome.exitCode
