import QueryFold.CommandLine.Run

/-!
# The program

The command line on the system that runs it.
-/

namespace QueryFold

/-- The content of a file, `none` if it cannot be read. -/
def readFile? (path : String) : IO (Option String) := do
  try return some (← IO.FS.readFile path) catch _ => return none

/-- The variables of the environment that settings are read from. -/
def readEnvironment : IO (String → Option String) := do
  let depth ← IO.getEnv Settings.depthVariable
  let validate ← IO.getEnv Settings.validateVariable
  return fun name =>
    if name = Settings.depthVariable then depth
    else if name = Settings.validateVariable then validate
    else none

/-- The system that runs the program. -/
def hostSystem : System IO where
  environment := readEnvironment
  file := readFile?
  input := do (← IO.getStdin).readToEnd

/-- Run a command line on this system, and answer with its code. -/
def runProgram (args : List String) : IO UInt32 := do
  let outcome ← runCommandLine args hostSystem
  IO.print outcome.output
  match outcome with
  | .failed reason => IO.eprintln ("Error: " ++ reason.message)
  | .misused => IO.eprint helpText
  | .done _ => pure ()
  return UInt32.ofNat outcome.code

end QueryFold

/-- The program. -/
def main (args : List String) : IO UInt32 := QueryFold.runProgram args
