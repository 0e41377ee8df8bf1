import RegisterMachine.Assembly.Assemble
import RegisterMachine.CommandLine.Failure
import RegisterMachine.CommandLine.Help
import RegisterMachine.Machine.Run
import RegisterMachine.Program.Listing
import RegisterMachine.Program.Verify

/-!
# Jobs

What a command does, as a tree of requests to its surroundings. A request is answered from outside
and the rest of the job depends on the answer, so that a job is a value and not an action.
-/

namespace RegisterMachine.CommandLine

/-- What a command leaves. -/
structure Report where
  code : UInt8 := 0
  output : String := ""
  errors : String := ""
  deriving DecidableEq, Repr

/-- A failed command, after what it has written before. -/
def Report.failed (failure : Failure) (output : String) : Report :=
  ⟨1, output, failure.text⟩

/-- What is left to do. -/
inductive Job where
  | done (report : Report)
  | read (path : String) (next : Except FileProblem (List UInt8) → Job)
  | write (path : String) (contents : List UInt8) (next : Option FileProblem → Job)
  | run (program : Program) (progress : Progress) (next : Ended → Job)

namespace Job

def fail (summary : String) (causes : List String) : Job :=
  .done (.failed ⟨summary, causes⟩ "")

def succeed (output : String) : Job :=
  .done { output }

end Job

/-! ## Paths -/

def fileName (path : String) : List Char :=
  (path.toList.reverse.takeWhile (· != '/')).reverse

def parent (path : String) : List Char :=
  (path.toList.reverse.dropWhile (· != '/')).reverse

/-- The name of a file and its extension, which follows the last dot. A name that only starts with a
dot has no extension. -/
def splitName (name : List Char) : List Char × Option (List Char) :=
  match name.reverse.dropWhile (· != '.') with
  | [] | [_] => (name, none)
  | _ :: stem => (stem.reverse, some (name.reverse.takeWhile (· != '.')).reverse)

def isSource (path : String) : Bool :=
  (splitName (fileName path)).2 == some "hsa".toList

def programName (path : String) : String :=
  String.ofList (splitName (fileName path)).1

/-- The path of the program file beside a source. A name whose extension follows two dots is left
with the dots, which stand for the directory above and take no other extension. -/
def programPath (path : String) : String :=
  let stem := (splitName (fileName path)).1
  String.ofList (parent path) ++ if stem = ['.'] then ".." else String.ofList stem ++ ".hsm"

/-! ## Files -/

def notText : String :=
  "stream did not contain valid UTF-8"

/-- The program in a file: an assembly source by its extension, and else a program file. -/
def loadProgram (path : String) (contents : List UInt8) : Except Failure Program :=
  if isSource path then
    match Bytes.toText? contents with
    | none => .error ⟨s!"Failed to read {path}", [notText]⟩
    | some source =>
      (Assembly.assemble (programName path) source).mapError fun error =>
        ⟨s!"Failed to assemble {path}", [error.message]⟩
  else
    (Program.decode contents).mapError (Failure.ofFileError s!"Failed to decode module {path}")

def withProgram (path : String) (next : Program → Job) : Job :=
  .read path fun
    | .error (.absent _) => .fail s!"File not found: {path}" []
    | .error problem => .fail s!"Failed to read {path}" [problem.message]
    | .ok contents =>
      match loadProgram path contents with
      | .error failure => .done (.failed failure "")
      | .ok program => next program

/-- The options in a configuration, or the reasons why there are none. -/
def loadOptions : Except FileProblem (List UInt8) → Except (List String) Options
  | .error problem => .error ["Failed to read config: " ++ problem.message, problem.message]
  | .ok contents =>
    match Bytes.toText? contents with
    | none => .error ["Failed to read config: " ++ notText, notText]
    | some text => (Options.parse text).mapError fun error => [error.message]

/-- Goes on with the options of a configuration, or with the default ones. -/
def withOptions (config : Option String) (next : Options → Job) : Job :=
  match config with
  | none => next {}
  | some path =>
    .read path fun contents =>
      match loadOptions contents with
      | .error causes => .fail s!"Failed to load VM options from {path}" causes
      | .ok options => next options

def withVerified (path : String) (next : Program → Job) : Job :=
  withProgram path fun program =>
    match program.verify with
    | .error error => .fail s!"{path} failed verification" [error.message]
    | .ok _ => next program

/-! ## Commands -/

/-- What a run leaves: its output, and its result unless that is null. -/
def runReport (path : String) (ended : Ended) : Report :=
  let output := ended.machine.output.text
  match ended.result with
  | .error fault => .failed (Failure.ofFault s!"{path} faulted" fault) output
  | .ok .null => { output }
  | .ok value => { output := output ++ ended.machine.heap.render value ++ "\n" }

def Command.job : Command → Job
  | .run path config trace =>
    withProgram path fun program =>
      withOptions config fun options =>
        let traceInstructions := options.traceInstructions || trace
        let machine := Machine.new { options with traceInstructions } 1
        .run program (machine.run program) fun ended => .done (runReport path ended)
  | .list path => withProgram path fun program => .succeed program.listing
  | .verify path =>
    withVerified path fun program =>
      .succeed (s!"{path}: ok ({program.size} instructions, {program.constants.size} constants, " ++
        s!"{program.functions.size} functions)\n")
  | .assemble path out =>
    withVerified path fun program =>
      let target := out.getD (programPath path)
      let contents := program.encode
      .write target contents fun
        | some problem => .fail s!"Failed to write {target}" [problem.message]
        | none => .succeed s!"Wrote {target} ({contents.length} bytes)\n"

def Request.job : Request → Job
  | .command given => given.job
  | .version => .succeed versionText
  | .help topic => .succeed topic.helpText
  | .usage error => .done ⟨2, "", error.text⟩

def job (words : List String) : Job :=
  (parse words).job

end RegisterMachine.CommandLine
