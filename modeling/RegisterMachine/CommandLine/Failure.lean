import RegisterMachine.Machine.Fault
import RegisterMachine.Program.File

/-!
# Failures

A command that fails says what it could not do and then why, from the outer reason to the innermost.
Further lines of a reason are indented like its first one.
-/

namespace RegisterMachine.CommandLine

/-- Why a file cannot be read or written. -/
inductive FileProblem where
  | absent (reason : String)
  | unusable (reason : String)
  deriving DecidableEq, Repr

def FileProblem.message : FileProblem → String
  | .absent reason | .unusable reason => reason

/-- A failed command. -/
structure Failure where
  summary : String
  causes : List String := []
  deriving DecidableEq, Repr

namespace Failure

/-- A text with a margin before each line but the first, which has a heading. -/
def indent (heading margin text : String) : String :=
  heading ++ String.intercalate ("\n" ++ margin) (text.splitOn "\n")

/-- A number, right-aligned in five columns. -/
def numbered (index : Nat) : String :=
  let digits := toString index
  String.ofList (List.replicate (5 - digits.length) ' ') ++ digits ++ ": "

/-- The reasons, each from the start of a line; several are numbered. -/
def reasons : List String → List String
  | [] => []
  | [cause] => [indent "    " "    " cause]
  | causes => causes.zipIdx.map fun (cause, index) => indent (numbered index) "       " cause

def text (failure : Failure) : String :=
  let detail :=
    match reasons failure.causes with
    | [] => ""
    | entries => "\n\nCaused by:\n" ++ String.intercalate "\n" entries
  "Error: " ++ failure.summary ++ detail ++ "\n"

def ofFileError (summary : String) (error : FileError) : Failure :=
  match error with
  | .decode cause => ⟨summary, [error.message, cause.message]⟩
  | _ => ⟨summary, [error.message]⟩

def ofFault (summary : String) (fault : Fault) : Failure :=
  ⟨summary, fault.message :: fault.cause?.toList⟩

end Failure

end RegisterMachine.CommandLine
