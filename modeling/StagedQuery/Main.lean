import StagedQuery.CommandLine

/-!
# The program

Gathers what `StagedQuery.CommandLine.run` works on – the arguments, the
environment and the content of the file named – and carries out its outcome.
-/

namespace StagedQuery

/-- The system's number for an error met in reading a file, if the system is at
fault. -/
def errorNumber? : IO.Error → Option UInt32
  | .noFileOrDirectory _ number _ | .permissionDenied _ number _ | .inappropriateType _ number _
  | .invalidArgument _ number _ => some number
  | _ => none

/-- The fault that an error met in reading a file stands for. The system's number
may come with either sign. -/
def fileFault (error : IO.Error) : FileFault :=
  let numbers := (errorNumber? error).elim [] fun number => [number.toNat, (0 - number).toNat]
  (numbers.findSome? FileFault.ofCode?).getD .notText

/-- The content of a file, or why it cannot be read. -/
def readContent (path : String) : IO (Except FileFault String) := do
  try
    return .ok (← IO.FS.readFile path)
  catch error =>
    return .error (fileFault error)

end StagedQuery

open StagedQuery

/-- Runs the program on its arguments. -/
def main (arguments : List String) : IO UInt32 := do
  let environment : Environment :=
    { workersPerServer := ← IO.getEnv Environment.workersVariable
      serverLimit := ← IO.getEnv Environment.serversVariable }
  let content ← match CommandLine.parse arguments with
    | some (.explain path _) => readContent path
    | _ => pure (.error .notFound)
  let outcome := CommandLine.run arguments (fun _ => content) environment
  IO.print outcome.output
  IO.eprint outcome.complaint
  return outcome.code
