import RegisterMachine.Machine.Execute

/-!
# Runs

A run goes on step by step. Its state is the machine, the frame that executes, and the frames that
wait for a call to return, the innermost first. A call puts its frame in front of them; a value
returned or thrown goes back to them; a fault ends all of them.
-/

namespace RegisterMachine

/-- A frame that waits at its call instruction, and the register for the result. -/
structure Caller where
  frame : Frame
  destination : UInt8
  deriving DecidableEq, Repr

def Caller.resume (caller : Caller) (value : Value) : Except Fault Frame := do
  let frame ← caller.frame.setRegister caller.destination value
  return { frame with pc := frame.pc + 1 }

/-- A run in progress: the frame that executes, and those that wait, the innermost first. -/
structure State where
  machine : Machine
  frame : Frame
  callers : List Caller := []

/-- A run that has ended, with the frames that ended with it, the innermost first. -/
structure Ended where
  machine : Machine
  frames : List Frame
  result : Except Fault Value

/-- How far a run has come. One that waits can go on when another machine has released a lock. -/
inductive Progress where
  | running (state : State)
  | waiting (state : State)
  | ended (outcome : Ended)

namespace State

/-! ## Ends of frames -/

def leaveFrames (machine : Machine) (count : Nat) : Machine :=
  { machine with depth := machine.depth - count }

def fault (machine : Machine) (frame : Frame) (callers : List Caller) (cause : Fault) : Progress :=
  .ended {
    machine := leaveFrames machine (callers.length + 1)
    frames := (frame :: callers.map (·.frame)).map Frame.halt
    result := .error cause }

/-- A value returned goes to the innermost caller, or is the result of the run. -/
def leave (machine : Machine) (frame : Frame) (callers : List Caller) (value : Value) : Progress :=
  match callers with
  | [] =>
    .ended { machine := leaveFrames machine 1, frames := [frame.halt], result := .ok value }
  | caller :: outer =>
    match caller.resume value with
    | .ok frame => .running ⟨leaveFrames machine 1, frame, outer⟩
    | .error cause => fault (leaveFrames machine 1) caller.frame outer cause

/-- A value thrown goes to the innermost frame that catches it; the frames inside of that one end.
-/
def throw (machine : Machine) (frame : Frame) (value : Value) : List Caller → Progress
  | [] =>
    match frame.unwind value with
    | (true, frame) => .running ⟨machine, frame, []⟩
    | (false, frame) =>
      .ended {
        machine := leaveFrames machine 1
        frames := [frame.halt]
        result := .error (.uncaught value) }
  | caller :: outer =>
    match frame.unwind value with
    | (true, frame) => .running ⟨machine, frame, caller :: outer⟩
    | (false, _) => throw (leaveFrames machine 1) caller.frame value outer

/-! ## Calls -/

/-- The frame of a function that is called. Calls nest no deeper than the limit. -/
def calleeFrame (program : Program) (machine : Machine) (index : Nat)
    (receiver moduleObject : Value) (arguments : List Value) : Except Fault Frame := do
  match program.functions[index]? with
  | none => Except.error (.invalidFunction index)
  | some function =>
    let limit := machine.options.limits.maxCallDepth
    if machine.depth ≥ limit then Except.error (.callDepthExceeded limit)
    else
      let frame ← Frame.new function.entry.toNat machine.options
      let frame ← frame.withArguments arguments
      return { frame with receiver, moduleObject }

def functionIndex? : Value → Option Nat
  | .function index => some index.toNat
  | .int index => if 0 ≤ index.toInt then some index.toInt.toNat else none
  | _ => none

/-- Calls a value: a function gets a frame of its own, a host function answers at once. -/
def call (program : Program) (machine : Machine) (frame : Frame) (callers : List Caller)
    (destination : UInt8) (callee receiver : Value) (arguments : List Value) : Progress :=
  match functionIndex? callee, callee with
  | some index, _ =>
    match calleeFrame program machine index receiver frame.moduleObject arguments with
    | .ok entered =>
      let machine := { machine with depth := machine.depth + 1 }
      .running ⟨machine, entered, ⟨frame, destination⟩ :: callers⟩
    | .error cause => fault machine frame callers cause
  | none, .native id =>
    match machine.callNative id receiver arguments with
    | (.ok value, machine) =>
      match Caller.resume ⟨frame, destination⟩ value with
      | .ok frame => .running ⟨machine, frame, callers⟩
      | .error cause => fault machine frame callers cause
    | (.error cause, machine) => fault machine frame callers cause
  | none, other => fault machine frame callers (.notCallable other.typeName)

/-! ## Steps -/

/-- The instruction that a frame is about to execute, with the frame that remembers its opcode. -/
def fetch (program : Program) (frame : Frame) : Frame × Except Fault (Opcode × Operands) :=
  match program.fetch? frame.pc with
  | none => (frame, .error (.pcOutOfBounds frame.pc))
  | some word =>
    let ins := Instruction.decode word
    let frame := { frame with opcode := ins.code }
    match ins.opcode? with
    | none => (frame, .error (.invalidOpcode ins.code frame.pc))
    | some op => (frame, (checkRegisters ins.operands).map fun _ => (op, ins.operands))

def exhausted? (machine : Machine) : Option Nat :=
  machine.options.limits.maxSteps.filter (machine.steps ≥ ·)

def step (program : Program) (state : State) : Progress :=
  match exhausted? state.machine with
  | some limit => fault state.machine state.frame state.callers (.stepBudgetExceeded limit)
  | none =>
    let machine := { state.machine with steps := state.machine.steps + 1 }
    match fetch program state.frame with
    | (frame, .error cause) => fault machine frame state.callers cause
    | (frame, .ok (op, operands)) =>
      match execute program machine frame op operands with
      | .error cause => fault machine frame state.callers cause
      | .ok (.next machine frame) =>
        .running ⟨machine, { frame with pc := frame.pc + 1 }, state.callers⟩
      | .ok (.jump frame target) => .running ⟨machine, { frame with pc := target }, state.callers⟩
      | .ok (.leave value) => leave machine frame state.callers value
      | .ok (.throw value) => throw machine frame value state.callers
      | .ok (.call frame destination callee receiver arguments) =>
        call program machine frame state.callers destination callee receiver arguments
      | .ok .wait => .waiting state

end State

def Progress.advance (program : Program) : Nat → Progress → Progress
  | count + 1, .running state => advance program count (state.step program)
  | _, progress => progress

def Progress.takeOutput : Progress → String × Progress
  | .running state =>
    (state.machine.output.text,
      .running { state with machine := { state.machine with output.written := .empty } })
  | .waiting state =>
    (state.machine.output.text,
      .waiting { state with machine := { state.machine with output.written := .empty } })
  | .ended outcome =>
    (outcome.machine.output.text,
      .ended { outcome with machine := { outcome.machine with output.written := .empty } })

/-! ## Beginnings -/

namespace Machine

def refuse (machine : Machine) (cause : Fault) : Progress :=
  .ended { machine, frames := [], result := .error cause }

/-- Begins to execute a frame. A frame that has ended stays as it is. -/
def enter (machine : Machine) (frame : Frame) : Progress :=
  if frame.halted then
    .ended { machine, frames := [frame], result := .error .frameHalted }
  else .running ⟨{ machine with depth := machine.depth + 1 }, frame, []⟩

def callFunction (machine : Machine) (program : Program) (index : Nat) (receiver : Value)
    (arguments : List Value) : Progress :=
  let machine := if machine.depth = 0 then { machine with steps := 0 } else machine
  match State.calleeFrame program machine index receiver .null arguments with
  | .ok frame => machine.enter frame
  | .error cause => machine.refuse cause

def call (machine : Machine) (program : Program) (name : String) (arguments : List Value) :
    Progress :=
  match program.functionIndex? name with
  | some index => machine.callFunction program index .null arguments
  | none => machine.refuse (.functionNotFound name)

/-- Begins to run a program from its main function, or from its first instruction if it has none. -/
def run (machine : Machine) (program : Program) : Progress :=
  match program.defect? with
  | some defect => machine.refuse (.invalidModule defect.message)
  | none =>
    match program.functionIndex? "main" with
    | some index => machine.callFunction program index .null []
    | none =>
      if program.isEmpty then machine.refuse .noEntryPoint
      else
        let machine := { machine with steps := 0 }
        match Frame.new 0 machine.options with
        | .ok frame => machine.enter frame
        | .error cause => machine.refuse cause

end Machine

end RegisterMachine
