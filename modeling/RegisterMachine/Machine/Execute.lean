import RegisterMachine.Machine.Arithmetic
import RegisterMachine.Machine.Container

/-!
# Instructions

What one instruction does to the machine and to the frame that executes it. An instruction that
fails has done nothing. Calls, returns and throws concern other frames too, so they are only
described here. No record is kept of what is executed, so a breakpoint does nothing.
-/

namespace RegisterMachine

/-- What an instruction comes to. A call carries the frame without its staged arguments, and the
register for the result; a frame waits for a lock that another machine owns. -/
inductive Effect where
  | next (machine : Machine) (frame : Frame)
  | jump (frame : Frame) (target : Nat)
  | leave (value : Value)
  | throw (value : Value)
  | call (frame : Frame) (destination : UInt8) (callee receiver : Value) (arguments : List Value)
  | wait

/-! ## Operands -/

def intOperand (op : Opcode) (value : Value) : Except Fault Int32 :=
  match value.int? with
  | some number => .ok number
  | none => .error (.type (.operand op "int" value.typeName))

def floatOperand (op : Opcode) (value : Value) : Except Fault Binary32 :=
  match value.float? with
  | some number => .ok number
  | none => .error (.type (.operand op "float" value.typeName))

def boolOperand (op : Opcode) (value : Value) : Except Fault Bool :=
  match value.bool? with
  | some truth => .ok truth
  | none => .error (.type (.operand op "bool" value.typeName))

def indexOperand (op : Opcode) (value : Value) : Except Fault Nat := do
  let number ← intOperand op value
  if 0 ≤ number.toInt then return number.toInt.toNat else throw (.indexOutOfRange number.toInt 0)

def targetOperand (program : Program) (value : Value) : Except Fault Nat :=
  match value with
  | .int target => Frame.checkTarget program.size target.toInt
  | other => .error (.type (.jumpTarget other.typeName))

/-- Every register operand has to exist; an absent one counts as register zero. -/
def checkRegisters (operands : Operands) : Except Fault Unit :=
  match [operands.a, operands.b, operands.c].find? fun index => index.toNat ≥ registerCount with
  | some index => .error (.invalidRegister index)
  | none => .ok ()

/-! ## Effects -/

namespace Effect

def assign (machine : Machine) (frame : Frame) (index : UInt8) (value : Value) :
    Except Fault Effect := do
  return .next machine (← frame.setRegister index value)

/-- Continues with a value in a register, and a changed machine. -/
def assignFrom (frame : Frame) (index : UInt8) (result : Except Fault (Value × Machine)) :
    Except Fault Effect := do
  let (value, machine) ← result
  assign machine frame index value

def onFrame (machine : Machine) (result : Except Fault Frame) : Except Fault Effect := do
  return .next machine (← result)

def onMachine (frame : Frame) (result : Except Fault Machine) : Except Fault Effect := do
  return .next (← result) frame

/-- Continues at a target if a condition holds, and else with the next instruction. -/
def branch (machine : Machine) (frame : Frame) (taken : Except Fault Bool)
    (target : Except Fault Nat) : Except Fault Effect := do
  if ← taken then return .jump frame (← target) else return .next machine frame

def invoke (frame : Frame) (destination : UInt8) (callee receiver : Value) : Effect :=
  let (arguments, frame) := frame.takeArguments
  .call frame destination callee receiver arguments

end Effect

open Effect in
def execute (program : Program) (machine : Machine) (frame : Frame) (op : Opcode)
    (operands : Operands) : Except Fault Effect :=
  let a := operands.a
  let b := operands.b
  let c := operands.c
  let immediate := operands.immediate.toNat
  let target := Frame.checkTarget program.size immediate
  match op with
  | .nop | .breakpoint => .ok (.next machine frame)
  | .halt | .returnNull | .endFunction => .ok (.leave .null)
  -- Loads.
  | .loadNull => assign machine frame a .null
  | .loadFalse => assign machine frame a (.bool false)
  | .loadTrue => assign machine frame a (.bool true)
  | .loadArg => do assign machine frame a (← frame.argument immediate)
  | .loadArgIndirect => do
    let index ← indexOperand op (← frame.register b)
    assign machine frame a (← frame.argument index)
  | .loadLocal => assign machine frame a (frame.loadLocal immediate)
  | .loadLocalIndirect => do
    let index ← indexOperand op (← frame.register b)
    assign machine frame a (frame.loadLocal index)
  | .loadField => do
    let key ← Machine.fieldName program immediate
    assign machine frame a (← machine.loadField frame.receiver key)
  | .loadFieldIndirect => do
    let key ← machine.stringKey (← frame.register c)
    assign machine frame a (← machine.loadField (← frame.register b) key)
  | .loadConst => assignFrom frame a (machine.loadConstant program immediate)
  | .loadConstIndirect => do
    let index ← indexOperand op (← frame.register b)
    assignFrom frame a (machine.loadConstant program index)
  | .loadInt =>
    assign machine frame a (.int (Int32.ofInt (Instruction.signedImmediate operands.immediate)))
  -- Stores.
  | .storeLocal => do onFrame machine (frame.storeLocal immediate (← frame.register a))
  | .storeLocalIndirect => do
    let index ← indexOperand op (← frame.register b)
    onFrame machine (frame.storeLocal index (← frame.register a))
  | .storeField => do
    let key ← Machine.fieldName program immediate
    onMachine frame (machine.storeField frame.receiver key (← frame.register a))
  | .storeFieldIndirect => do
    let key ← machine.stringKey (← frame.register b)
    onMachine frame (machine.storeField (← frame.register a) key (← frame.register c))
  | .move => do assign machine frame a (← frame.register b)
  -- Value stack.
  | .stackPop => do
    let (value, frame) ← frame.pop
    assign machine frame a value
  | .stackPush => do onFrame machine (frame.push (← frame.register a))
  | .stackPeek => do assign machine frame a (← frame.peek)
  | .stackDup => do onFrame machine (frame.push (← frame.peek))
  -- Jumps.
  | .jump => do return .jump frame (← target)
  | .jumpIndirect => do return .jump frame (← targetOperand program (← frame.register a))
  | .jumpIf condition => do
    let taken := condition.test op (← frame.register a) (← frame.register b)
    branch machine frame taken (targetOperand program (← frame.register c))
  | .jumpIfZero condition => do
    branch machine frame (condition.test op (← frame.register a) (.int 0)) target
  | .jumpIfZeroIndirect condition => do
    let taken := condition.test op (← frame.register a) (.int 0)
    branch machine frame taken (targetOperand program (← frame.register b))
  -- Returns.
  | .returnValue => do return .leave (← frame.register a)
  | .returnSelf => .ok (.leave frame.receiver)
  -- Calls.
  | .reserveArgs => onFrame machine (frame.reserveArguments immediate)
  | .reserveArgsIndirect => do
    let count ← indexOperand op (← frame.register a)
    onFrame machine (frame.reserveArguments count)
  | .setArg => do onFrame machine (frame.setArgument immediate (← frame.register a))
  | .setArgIndirect => do
    let index ← indexOperand op (← frame.register b)
    onFrame machine (frame.setArgument index (← frame.register a))
  | .call => do
    let key ← machine.stringKey (← frame.register b)
    let callee ← machine.loadField frame.receiver key
    if callee = .null then throw (.type (.noMethod key))
    return invoke frame a callee frame.receiver
  | .localCall => do return invoke frame a (← frame.register b) .null
  | .dynamicCall => do
    let receiver ← frame.register b
    return invoke frame a (← frame.register c) receiver
  -- Receiver and module object.
  | .setThis => do
    let receiver ← frame.register a
    return .next machine { frame with receiver }
  | .setModule => do
    let moduleObject ← frame.register a
    return .next machine { frame with moduleObject }
  | .getThis => assign machine frame a frame.receiver
  | .getModule => assign machine frame a frame.moduleObject
  -- Truth values.
  | .boolBinary operation => do
    let x ← boolOperand op (← frame.register b)
    let y ← boolOperand op (← frame.register c)
    assign machine frame a (operation.apply x y)
  | .boolNot => do
    let x ← boolOperand op (← frame.register b)
    assign machine frame a (.bool !x)
  -- Integers.
  | .intBinary operation => do
    let x ← intOperand op (← frame.register b)
    let y ← intOperand op (← frame.register c)
    assign machine frame a (.int (← operation.apply x y))
  | .intNeg => do
    let x ← intOperand op (← frame.register b)
    assign machine frame a (.int (-x))
  | .intCpl => do
    let x ← intOperand op (← frame.register b)
    assign machine frame a (.int (~~~x))
  | .intInc => do
    let x ← intOperand op (← frame.register a)
    assign machine frame a (.int (x + 1))
  | .intDec => do
    let x ← intOperand op (← frame.register a)
    assign machine frame a (.int (x - 1))
  -- Floats.
  | .floatBinary operation => do
    let x ← floatOperand op (← frame.register b)
    let y ← floatOperand op (← frame.register c)
    assign machine frame a (operation.apply x y)
  | .floatUnary operation => do
    let x ← floatOperand op (← frame.register b)
    assign machine frame a (.float (operation.apply x))
  | .floatInc => do
    let x ← floatOperand op (← frame.register a)
    assign machine frame a (.float (x.add Binary32.one))
  | .floatDec => do
    let x ← floatOperand op (← frame.register a)
    assign machine frame a (.float (x.sub Binary32.one))
  -- Conversions.
  | .boolToInt => do
    let x ← boolOperand op (← frame.register b)
    assign machine frame a (.int (truthNumber x))
  | .intToBool => do
    let x ← intOperand op (← frame.register b)
    assign machine frame a (.bool (x != 0))
  | .intToFloat => do
    let x ← intOperand op (← frame.register b)
    assign machine frame a (.float (Binary32.ofInt32 x))
  | .floatToInt => do
    let x ← floatOperand op (← frame.register b)
    assign machine frame a (.int x.toInt32)
  -- Objects.
  | .newObject => assignFrom frame a (machine.alloc (.plain {}))
  | .extend => do assignFrom frame a (machine.extend (← frame.register b))
  -- Boxes.
  | .boxBool => do
    let x ← boolOperand op (← frame.register b)
    assignFrom frame a (machine.alloc (.boxed (.bool x)))
  | .boxInt => do
    let x ← intOperand op (← frame.register b)
    assignFrom frame a (machine.alloc (.bignum (Bignum.ofInt32 x)))
  | .boxFloat => do
    let x ← floatOperand op (← frame.register b)
    assignFrom frame a (machine.alloc (.boxed (.float x)))
  | .unbox => do assign machine frame a (← machine.unbox (← frame.register b))
  -- Locks.
  | .lock => do
    let key ← machine.lockKey (← frame.register a)
    match machine.locks.attempt key machine.id machine.options.lockTimeout with
    | .ok (.acquired locks) => return .next { machine with locks } frame
    | .ok .waiting => return .wait
    | .error cause => throw (.lock cause)
  | .unlock => do
    let key ← machine.lockKey (← frame.register a)
    onMachine frame (machine.unlock key)
  -- Containers.
  | .arrayNew => assignFrom frame a (machine.newArray immediate)
  | .arrayNewIndirect => do
    let length ← indexOperand op (← frame.register b)
    assignFrom frame a (machine.newArray length)
  | .arrayGet => do
    assign machine frame a (← machine.containerGet (← frame.register b) (← frame.register c))
  | .arraySet => do
    let container ← frame.register a
    onMachine frame (machine.containerSet container (← frame.register b) (← frame.register c))
  | .arrayDelete => do
    onMachine frame (machine.containerErase (← frame.register a) (← frame.register b))
  -- Try contexts.
  | .newTry => do return .next machine (frame.openTry (some (← target)))
  | .newTryIndirect => do
    let finalizer ← targetOperand program (← frame.register a)
    return .next machine (frame.openTry (some finalizer))
  | .newTryNoFinal => .ok (.next machine (frame.openTry none))
  | .addCatch => do onFrame machine (frame.addCatch a (← target))
  | .addCatchIndirect => do
    onFrame machine (frame.addCatch a (← targetOperand program (← frame.register b)))
  | .throw => do return .throw (← frame.register a)
  | .endTry => do
    match ← frame.endTry with
    | (some finalizer, frame) => return .jump frame finalizer
    | (none, frame) => return .next machine frame
  -- Functions.
  | .declareFunction => do assign machine frame a (← Machine.functionValue program immediate)
  | .declareFunctionIndirect => do
    let index ← indexOperand op (← frame.register b)
    assign machine frame a (← Machine.functionValue program index)

end RegisterMachine
