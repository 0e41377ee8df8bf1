import RegisterMachine.CommandLine.Job

/-!
# The command line tool

Answers the requests of a job from the file system and the standard streams.
-/

namespace RegisterMachine.CommandLine

/-- The problem that an error of the file system is. Nothing is there behind a file or a name that
is too long. -/
def FileProblem.ofError : IO.Error → FileProblem
  | .noFileOrDirectory .. => .absent "No such file or directory (os error 2)"
  | .inappropriateType _ 20 details => .absent s!"{details} (os error 20)"
  | .invalidArgument _ 36 details => .absent s!"{details} (os error 36)"
  | .inappropriateType _ code details => .unusable s!"{details} (os error {code})"
  | .permissionDenied _ code details => .unusable s!"{details} (os error {code})"
  | error => .unusable error.toString

partial def finish (program : Program) (progress : Progress) : IO Ended := do
  let (text, progress) := progress.takeOutput
  IO.print text
  match progress with
  | .ended outcome => return outcome
  | .waiting state =>
    IO.sleep 1
    finish program (.running state)
  | .running _ => finish program (progress.advance program 4096)

def Job.perform : Job → IO Report
  | .done report => return report
  | .read path next => do
    let contents ← (IO.FS.readBinFile path).toBaseIO
    perform (next (match contents with
      | .ok bytes => .ok bytes.toList
      | .error error => .error (.ofError error)))
  | .write path contents next => do
    let written ← (IO.FS.writeBinFile path (ByteArray.mk contents.toArray)).toBaseIO
    perform (next (match written with
      | .ok _ => none
      | .error error => some (.ofError error)))
  | .run program progress next => do
    perform (next (← finish program progress))

end RegisterMachine.CommandLine

def main (arguments : List String) : IO UInt32 := do
  let report ← (RegisterMachine.CommandLine.job arguments).perform
  IO.print report.output
  IO.eprint report.errors
  return report.code.toUInt32
