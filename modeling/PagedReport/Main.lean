import PagedReport.CommandLine.Answering

/-!
# The program

Jobs are performed on the disk of the machine, which is all that happens here.
-/

namespace PagedReport

/-- The cause of a failure that the machine reports. -/
def FileError.ofReport : IO.Error → FileError
  | .noFileOrDirectory .. => .notFound
  | .inappropriateType _ 20 _ => .notDirectory
  | .inappropriateType .. => .isDirectory
  | .illegalOperation .. => .isDirectory
  | e => .other (toString e)

/-- The answer of the machine to an action. -/
def FileError.catching {α : Type} (action : IO α) : IO (Except FileError α) := do
  try
    return .ok (← action)
  catch e =>
    return .error (.ofReport e)

/-- Performs a job. -/
def Job.perform {α : Type} : Job α → IO α
  | .done a => pure a
  | .read path next => do
    (next (← FileError.catching (IO.FS.readBinFile path))).perform
  | .write path document next => do
    (next (← FileError.catching (IO.FS.writeBinFile path document.bytes))).perform

end PagedReport

/-- Runs a command line. -/
def main (arguments : List String) : IO UInt32 := do
  let answer ← (PagedReport.CommandLine.answer arguments).perform
  (← IO.getStdout).putStr answer.output
  (← IO.getStderr).putStr answer.errors
  return answer.code.toUInt32
