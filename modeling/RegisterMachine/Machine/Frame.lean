import RegisterMachine.Machine.Fault
import RegisterMachine.Options.Basic

/-!
# Frames

The activation record of a call: registers, arguments staged for the next call, arguments received,
a value stack, scratch slots, receiver and module object, the program counter, and open try
contexts. A frame that has halted never runs again.

Memory is taken to suffice: what grows is given room, and only a size that no memory can have is
refused. Room that is set aside and not in use is not recorded.
-/

namespace RegisterMachine

/-- Where a thrown value is caught. -/
structure CatchHandler where
  register : UInt8
  target : Nat
  deriving DecidableEq, Repr

/-- An open try context, with the depth that the value stack had when it was opened. -/
structure TryContext where
  finalizer : Option Nat
  catches : List CatchHandler := []
  stackDepth : Nat
  deriving DecidableEq, Repr

/-! ## Staged arguments -/

/-- Slots for the arguments of the next call, of which the first few are reserved. -/
structure ArgumentBuffer where
  slots : Vector Value maxArguments := Vector.replicate maxArguments .null
  reserved : Nat := 0
  deriving DecidableEq, Repr

namespace ArgumentBuffer

def reserve (count : Nat) : Except Fault ArgumentBuffer :=
  if count > maxArguments then .error (.tooManyArguments count) else .ok { reserved := count }

def set (buffer : ArgumentBuffer) (index : Nat) (value : Value) : Except Fault ArgumentBuffer :=
  if index ≥ buffer.reserved then .error (.argumentIndexOutOfRange index)
  else .ok { buffer with slots := buffer.slots.setIfInBounds index value }

def arguments (buffer : ArgumentBuffer) : List Value :=
  buffer.slots.toList.take buffer.reserved

end ArgumentBuffer

/-! ## Frames -/

/-- The activation record of a call. The opcode is that of the instruction fetched last; of the open
try contexts, the innermost comes first. -/
structure Frame where
  registers : Vector Value registerCount := Vector.replicate registerCount .null
  outgoing : ArgumentBuffer := {}
  arguments : List Value := []
  stack : Array Value := #[]
  maxStack : Nat
  scratch : Array Value := #[]
  maxScratch : Nat
  receiver : Value := .null
  moduleObject : Value := .null
  pc : Nat
  opcode : UInt8 := 0
  halted : Bool := false
  tries : List TryContext := []
  deriving DecidableEq, Repr

namespace Frame

def slotSize : Nat := 12

/-- A new frame. The scratch slots set aside at first have to fit half of a 64-bit address space. -/
def new (entry : Nat) (options : Options) : Except Fault Frame :=
  if options.scratchInitialCapacity * slotSize > 2 ^ 63 - 1 then .error .allocationFailed
  else
    .ok {
      maxStack := options.limits.maxStackDepth
      maxScratch := options.limits.maxScratchSlots
      pc := entry }

def withArguments (frame : Frame) (arguments : List Value) : Except Fault Frame :=
  if arguments.length > maxArguments then .error (.tooManyArguments arguments.length)
  else .ok { frame with arguments }

/-- The frame, ended. -/
def halt (frame : Frame) : Frame :=
  { frame with halted := true }

/-- A jump target, which may be any place of the code or its end. -/
def checkTarget (size : Nat) (target : Int) : Except Fault Nat :=
  if 0 ≤ target ∧ target ≤ size then .ok target.toNat else .error (.invalidJumpTarget target)

/-! ## Registers and arguments -/

def register (frame : Frame) (index : UInt8) : Except Fault Value :=
  match frame.registers[index.toNat]? with
  | some value => .ok value
  | none => .error (.invalidRegister index)

def setRegister (frame : Frame) (index : UInt8) (value : Value) : Except Fault Frame :=
  if index.toNat < registerCount then
    .ok { frame with registers := frame.registers.setIfInBounds index.toNat value }
  else .error (.invalidRegister index)

def argument (frame : Frame) (index : Nat) : Except Fault Value :=
  match frame.arguments[index]? with
  | some value => .ok value
  | none => .error (.argumentIndexOutOfRange index)

def reserveArguments (frame : Frame) (count : Nat) : Except Fault Frame := do
  return { frame with outgoing := ← ArgumentBuffer.reserve count }

def setArgument (frame : Frame) (index : Nat) (value : Value) : Except Fault Frame := do
  return { frame with outgoing := ← frame.outgoing.set index value }

/-- Takes the staged arguments, leaving none. -/
def takeArguments (frame : Frame) : List Value × Frame :=
  (frame.outgoing.arguments, { frame with outgoing := {} })

/-! ## Value stack -/

def push (frame : Frame) (value : Value) : Except Fault Frame :=
  if frame.stack.size ≥ frame.maxStack then .error .stackOverflow
  else .ok { frame with stack := frame.stack.push value }

def peek (frame : Frame) : Except Fault Value :=
  match frame.stack.back? with
  | some value => .ok value
  | none => .error .stackUnderflow

def pop (frame : Frame) : Except Fault (Value × Frame) := do
  return (← frame.peek, { frame with stack := frame.stack.pop })

/-! ## Scratch slots -/

/-- A scratch slot; one never written is null. -/
def loadLocal (frame : Frame) (index : Nat) : Value :=
  (frame.scratch[index]?).getD .null

/-- Writes a scratch slot, filling up with null on the way to it. -/
def storeLocal (frame : Frame) (index : Nat) (value : Value) : Except Fault Frame :=
  if index ≥ frame.maxScratch then .error (.scratchLimitExceeded index)
  else
    let missing := index + 1 - frame.scratch.size
    let scratch := frame.scratch ++ Array.replicate missing .null
    .ok { frame with scratch := scratch.setIfInBounds index value }

/-! ## Try contexts -/

def openTry (frame : Frame) (finalizer : Option Nat) : Frame :=
  { frame with tries := { finalizer, stackDepth := frame.stack.size } :: frame.tries }

/-- Adds a catch to the innermost try context. -/
def addCatch (frame : Frame) (register : UInt8) (target : Nat) : Except Fault Frame :=
  if register.toNat ≥ registerCount then .error (.invalidRegister register)
  else
    match frame.tries with
    | [] => .error .noTryContext
    | innermost :: outer =>
      let catches := innermost.catches ++ [⟨register, target⟩]
      .ok { frame with tries := { innermost with catches } :: outer }

/-- Closes the innermost try context, giving its finalizer. -/
def endTry (frame : Frame) : Except Fault (Option Nat × Frame) :=
  match frame.tries with
  | [] => .error .noTryContext
  | innermost :: outer => .ok (innermost.finalizer, { frame with tries := outer })

/-- The innermost context with a catch: its first catch, its stack depth, and the contexts outside
of it. -/
def handler? : List TryContext → Option (CatchHandler × Nat × List TryContext)
  | [] => none
  | context :: outer =>
    match context.catches with
    | handler :: _ => some (handler, context.stackDepth, outer)
    | [] => handler? outer

/-- Gives a thrown value to the first catch of the innermost context that has one. That context and
those inside of it are closed, and the stack is cut to its depth at that time. Without such a
context all are closed and the value is not caught. -/
def unwind (frame : Frame) (thrown : Value) : Bool × Frame :=
  match handler? frame.tries with
  | none => (false, { frame with tries := [] })
  | some (handler, depth, outer) =>
    (true,
      { frame with
        tries := outer
        stack := frame.stack.take depth
        registers := frame.registers.setIfInBounds handler.register.toNat thrown
        pc := handler.target })

def roots (frame : Frame) : List Value :=
  frame.registers.toList ++ frame.outgoing.slots.toList ++ frame.arguments ++ frame.stack.toList ++
    frame.scratch.toList ++ [frame.receiver, frame.moduleObject]

end Frame

end RegisterMachine
