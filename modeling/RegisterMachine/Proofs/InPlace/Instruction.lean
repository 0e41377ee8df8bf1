import RegisterMachine.Proofs.InPlace.Native
import RegisterMachine.Proofs.Machine.Step

/-!
# Instructions in place

Every instruction once more, as work on the machine and the frame that executes it. Some change the
state before their last check: a value is taken from the stack, or an object is made, before the
register for it is looked up. That they still do all or nothing rests on the check of the registers
that comes before every instruction.
-/

namespace RegisterMachine

namespace InPlace

open Work

/-- What an instruction works on: the machine, and the frame that executes. -/
structure Core where
  machine : Machine
  frame : Frame

/-- Work of an instruction. -/
abbrev Task := Work Core Fault

/-- Where an instruction leads: on, to a place of the code, out of the frame with a value, into the
frame of a function whose result goes into a register, or nowhere until another machine releases a
lock. -/
inductive Flow where
  | next
  | jump (target : Nat)
  | leave (value : Value)
  | enter (callee : Frame) (destination : UInt8)
  | wait

/-! ## Parts of instructions -/

/-- What does not depend on the state. -/
def check (result : Except Fault α) : Task α :=
  look fun _ ↦ result

/-- Changes the frame. -/
def alter (update : Frame → Frame) : Task Unit :=
  change fun core ↦ { core with frame := update core.frame }

/-- The value of a register. -/
def register (index : UInt8) : Task Value :=
  look (·.frame.register index)

/-- Sets a register. -/
def setRegister (index : UInt8) (value : Value) : Task Unit :=
  if index.toNat < registerCount then
    alter fun frame ↦
      { frame with registers := frame.registers.setIfInBounds index.toNat value }
  else fail (.invalidRegister index)

/-- Clears the staged arguments and reserves slots. -/
def reserveArguments (count : Nat) : Task Unit := do
  refuse (count > maxArguments) (.tooManyArguments count)
  alter fun frame ↦ { frame with outgoing.slots := Vector.replicate maxArguments .null }
  alter fun frame ↦ { frame with outgoing.reserved := count }

/-- Stages an argument. -/
def setArgument (index : Nat) (value : Value) : Task Unit := do
  refuse (index ≥ (← get (·.frame.outgoing.reserved))) (.argumentIndexOutOfRange index)
  alter fun frame ↦
    { frame with outgoing.slots := frame.outgoing.slots.setIfInBounds index value }

/-- Takes the staged arguments, leaving none. -/
def takeArguments : Task (List Value) := do
  let arguments ← get (·.frame.outgoing.arguments)
  alter fun frame ↦ { frame with outgoing.slots := Vector.replicate maxArguments .null }
  alter fun frame ↦ { frame with outgoing.reserved := 0 }
  return arguments

/-- Pushes a value. -/
def pushValue (value : Value) : Task Unit := do
  refuse ((← get (·.frame.stack.size)) ≥ (← get (·.frame.maxStack))) .stackOverflow
  alter fun frame ↦ { frame with stack := frame.stack.push value }

/-- Pops a value. The stack loses its top, if it has one, before that is known. -/
def popValue : Task Value := do
  let top ← get (·.frame.stack.back?)
  alter fun frame ↦ { frame with stack := frame.stack.pop }
  match top with
  | some value => return value
  | none => fail .stackUnderflow

/-- Writes a scratch slot, filling up with null on the way to it. -/
def storeLocal (index : Nat) (value : Value) : Task Unit := do
  refuse (index ≥ (← get (·.frame.maxScratch))) (.scratchLimitExceeded index)
  alter fun frame ↦
    let missing := index + 1 - frame.scratch.size
    { frame with scratch := frame.scratch ++ Array.replicate missing .null }
  alter fun frame ↦ { frame with scratch := frame.scratch.setIfInBounds index value }

/-- Adds a catch to the innermost try context. -/
def addCatch (index : UInt8) (target : Nat) : Task Unit := do
  refuse (index.toNat ≥ registerCount) (.invalidRegister index)
  match ← get (·.frame.tries) with
  | [] => fail .noTryContext
  | innermost :: outer =>
    let catches := innermost.catches ++ [⟨index, target⟩]
    alter fun frame ↦ { frame with tries := { innermost with catches } :: outer }

/-- Closes the innermost try context, giving its finalizer. The context, if there is one, is gone
before that is known. -/
def endTry : Task (Option Nat) := do
  let innermost ← get (·.frame.tries.head?)
  alter fun frame ↦ { frame with tries := frame.tries.tail }
  match innermost with
  | some context => return context.finalizer
  | none => fail .noTryContext

/-- Changes the locks. -/
def setLocks (locks : LockTable) : Task Unit :=
  change fun core ↦ { core with machine.locks := locks }

/-- The object of a reference. -/
def object (handle : Handle) : Task HeapObject :=
  look (·.machine.object handle)

/-- Replaces the object of a reference. -/
def put (handle : Handle) (object : HeapObject) : Task Unit :=
  change fun core ↦ { core with machine := core.machine.put handle object }

/-- Allocates an object. -/
def alloc (object : HeapObject) : Task Value := do
  let restore (core : Core) (heap : Heap) : Core := { core with machine.heap := heap }
  return .object (← within (fun core ↦ core.machine.heap) restore .heap (allocate object))

/-- The value of a constant; strings and bignums are new objects. -/
def loadConstant (program : Program) (index : Nat) : Task Value := do
  match program.constants.get? index with
  | none => fail (.invalidConstant index)
  | some (.int value) => return .int value
  | some (.float value) => return .float value
  | some (.str value) => alloc (.str value)
  | some (.big value) => alloc (.bignum value)
  | some (.native name) =>
    match ← get (·.machine.natives.lookup? name) with
    | some id => return .native id
    | none => fail (.unknownNative name)

/-- An array of nulls. -/
def newArray (length : Nat) : Task Value := do
  refuse (length > (← get (·.machine.options.limits.maxArrayLength))) (.arrayTooLarge length)
  alloc (.array (Array.replicate length .null))

/-- An empty object with a prototype. -/
def extend (prototype : Value) : Task Value := do
  match prototype with
  | .object handle =>
    match ← object handle with
    | .plain _ => alloc (.plain { prototype := some handle })
    | _ => fail (.type (.operand .extend "object" prototype.typeName))
  | _ => fail (.type (.operand .extend "object" prototype.typeName))

/-- Sets a field of an object. -/
def storeField (target : Value) (key : String) (value : Value) : Task Unit := do
  let refuse : Task Unit :=
    look fun core ↦ .error (.type (.writeField key (core.machine.describe target)))
  match target with
  | .object handle =>
    match ← object handle with
    | .plain found =>
      put handle (.plain { found with fields := Entries.insert found.fields key value })
    | _ => refuse
  | _ => refuse

/-- Sets the entry of a key of a container. -/
def containerSet (container key value : Value) : Task Unit := do
  let handle ← check (Machine.containerHandle .arraySet container)
  let maxLength ← get (·.machine.options.limits.maxArrayLength)
  match ← object handle with
  | .array items => put handle (.array (← check (Sequence.set items key value maxLength)))
  | .list items => put handle (.list (← check (Sequence.set items key value maxLength)))
  | .map entries => put handle (.map (Entries.insert entries key value))
  | .set items =>
    if value.isTruthy then put handle (.set (if items.contains key then items else items ++ [key]))
    else put handle (.set (items.filter (· != key)))
  | other => fail (.type (.operand .arraySet "container" other.typeName))

/-- Removes the entry of a key of a container. -/
def containerErase (container key : Value) : Task Unit := do
  let handle ← check (Machine.containerHandle .arrayDelete container)
  match ← object handle with
  | .array items => put handle (.array (← check (Sequence.erase items key)))
  | .list items => put handle (.list (← check (Sequence.erase items key)))
  | .map entries => put handle (.map (Entries.erase entries key))
  | .set items => put handle (.set (items.filter (· != key)))
  | other => fail (.type (.operand .arrayDelete "container" other.typeName))

/-- Asks for a lock. -/
def lock (key : LockKey) : Task Flow := do
  let attempt ← look fun core ↦
    (core.machine.locks.attempt key core.machine.id core.machine.options.lockTimeout).mapError .lock
  match attempt with
  | .acquired locks =>
    setLocks locks
    return .next
  | .waiting => return .wait

/-- Releases a lock. -/
def unlock (key : LockKey) : Task Unit := do
  setLocks (← look fun core ↦ (core.machine.locks.unlock key core.machine.id).mapError .lock)

/-! ## Ends of instructions -/

/-- Continues with the next instruction. -/
def andNext (work : Task Unit) : Task Flow := do
  work
  return .next

/-- Continues with a value in a register. -/
def assign (index : UInt8) (value : Value) : Task Flow :=
  andNext (setRegister index value)

/-- Continues at a target if a condition holds, and else with the next instruction. -/
def branch (taken : Except Fault Bool) (target : Except Fault Nat) : Task Flow := do
  if ← check taken then return .jump (← check target) else return .next

/-- What the machine lends to a host function. -/
def Core.site (core : Core) : Site :=
  ⟨core.machine.heap, core.machine.output⟩

/-- The machine takes back what it has lent. -/
def Core.restore (core : Core) (site : Site) : Core :=
  { core with machine.heap := site.heap, machine.output := site.output }

/-- The answer of a host function. -/
def ask (name : String) (action : Action) (receiver : Value) (arguments : List Value) :
    Task Value :=
  within Core.site Core.restore (.native name) (action receiver arguments)

/-- Calls a value: a function gets a frame of its own, a host function answers at once. -/
def callValue (program : Program) (actions : List (String × Action)) (destination : UInt8)
    (callee receiver : Value) (arguments : List Value) : Task Flow := do
  match State.functionIndex? callee, callee with
  | some index, _ =>
    let entered ← look fun core ↦
      State.calleeFrame program core.machine index receiver core.frame.moduleObject arguments
    return .enter entered destination
  | none, .native id =>
    match actions[id.toNat]? with
    | none => fail (.unknownNative s!"#{id}")
    | some (name, action) => do assign destination (← ask name action receiver arguments)
  | none, other => fail (.notCallable other.typeName)

/-- Calls a value with the staged arguments. -/
def invoke (program : Program) (actions : List (String × Action)) (destination : UInt8)
    (callee receiver : Value) : Task Flow := do
  let arguments ← takeArguments
  callValue program actions destination callee receiver arguments

/-! ## All instructions -/

/-- Does what an instruction does. -/
def dispatch (program : Program) (actions : List (String × Action)) (op : Opcode)
    (operands : Operands) : Task Flow :=
  let a := operands.a
  let b := operands.b
  let c := operands.c
  let immediate := operands.immediate.toNat
  let target := Frame.checkTarget program.size immediate
  match op with
  | .nop | .breakpoint => return .next
  | .halt | .returnNull | .endFunction => return .leave .null
  -- Loads.
  | .loadNull => assign a .null
  | .loadFalse => assign a (.bool false)
  | .loadTrue => assign a (.bool true)
  | .loadArg => do assign a (← look (·.frame.argument immediate))
  | .loadArgIndirect => do
    let index ← check (indexOperand op (← register b))
    assign a (← look (·.frame.argument index))
  | .loadLocal => do assign a (← get (·.frame.loadLocal immediate))
  | .loadLocalIndirect => do
    let index ← check (indexOperand op (← register b))
    assign a (← get (·.frame.loadLocal index))
  | .loadField => do
    let key ← check (Machine.fieldName program immediate)
    assign a (← look fun core ↦ core.machine.loadField core.frame.receiver key)
  | .loadFieldIndirect => do
    let name ← register c
    let key ← look (·.machine.stringKey name)
    let holder ← register b
    assign a (← look (·.machine.loadField holder key))
  | .loadConst => do assign a (← loadConstant program immediate)
  | .loadConstIndirect => do
    let index ← check (indexOperand op (← register b))
    assign a (← loadConstant program index)
  | .loadInt => assign a (.int (Int32.ofInt (Instruction.signedImmediate operands.immediate)))
  -- Stores.
  | .storeLocal => do andNext (storeLocal immediate (← register a))
  | .storeLocalIndirect => do
    let index ← check (indexOperand op (← register b))
    andNext (storeLocal index (← register a))
  | .storeField => do
    let key ← check (Machine.fieldName program immediate)
    let value ← register a
    andNext (storeField (← get (·.frame.receiver)) key value)
  | .storeFieldIndirect => do
    let name ← register b
    let key ← look (·.machine.stringKey name)
    andNext (storeField (← register a) key (← register c))
  | .move => do assign a (← register b)
  -- Value stack.
  | .stackPop => do assign a (← popValue)
  | .stackPush => do andNext (pushValue (← register a))
  | .stackPeek => do assign a (← look (·.frame.peek))
  | .stackDup => do andNext (pushValue (← look (·.frame.peek)))
  -- Jumps.
  | .jump => do return .jump (← check target)
  | .jumpIndirect => do return .jump (← check (targetOperand program (← register a)))
  | .jumpIf condition => do
    let taken := condition.test op (← register a) (← register b)
    branch taken (targetOperand program (← register c))
  | .jumpIfZero condition => do branch (condition.test op (← register a) (.int 0)) target
  | .jumpIfZeroIndirect condition => do
    let taken := condition.test op (← register a) (.int 0)
    branch taken (targetOperand program (← register b))
  -- Returns.
  | .returnValue => do return .leave (← register a)
  | .returnSelf => do return .leave (← get (·.frame.receiver))
  -- Calls.
  | .reserveArgs => andNext (reserveArguments immediate)
  | .reserveArgsIndirect => do
    andNext (reserveArguments (← check (indexOperand op (← register a))))
  | .setArg => do andNext (setArgument immediate (← register a))
  | .setArgIndirect => do
    let index ← check (indexOperand op (← register b))
    andNext (setArgument index (← register a))
  | .call => do
    let receiver ← get (·.frame.receiver)
    let name ← register b
    let key ← look (·.machine.stringKey name)
    let callee ← look (·.machine.loadField receiver key)
    refuse (callee = .null) (.type (.noMethod key))
    invoke program actions a callee receiver
  | .localCall => do invoke program actions a (← register b) .null
  | .dynamicCall => do
    let receiver ← register b
    invoke program actions a (← register c) receiver
  -- Receiver and module object.
  | .setThis => do
    let receiver ← register a
    andNext (alter fun frame ↦ { frame with receiver })
  | .setModule => do
    let moduleObject ← register a
    andNext (alter fun frame ↦ { frame with moduleObject })
  | .getThis => do assign a (← get (·.frame.receiver))
  | .getModule => do assign a (← get (·.frame.moduleObject))
  -- Truth values.
  | .boolBinary operation => do
    let x ← check (boolOperand op (← register b))
    let y ← check (boolOperand op (← register c))
    assign a (operation.apply x y)
  | .boolNot => do
    let x ← check (boolOperand op (← register b))
    assign a (.bool !x)
  -- Integers.
  | .intBinary operation => do
    let x ← check (intOperand op (← register b))
    let y ← check (intOperand op (← register c))
    assign a (.int (← check (operation.apply x y)))
  | .intNeg => do
    let x ← check (intOperand op (← register b))
    assign a (.int (-x))
  | .intCpl => do
    let x ← check (intOperand op (← register b))
    assign a (.int (~~~x))
  | .intInc => do
    let x ← check (intOperand op (← register a))
    assign a (.int (x + 1))
  | .intDec => do
    let x ← check (intOperand op (← register a))
    assign a (.int (x - 1))
  -- Floats.
  | .floatBinary operation => do
    let x ← check (floatOperand op (← register b))
    let y ← check (floatOperand op (← register c))
    assign a (operation.apply x y)
  | .floatUnary operation => do
    let x ← check (floatOperand op (← register b))
    assign a (.float (operation.apply x))
  | .floatInc => do
    let x ← check (floatOperand op (← register a))
    assign a (.float (x.add Binary32.one))
  | .floatDec => do
    let x ← check (floatOperand op (← register a))
    assign a (.float (x.sub Binary32.one))
  -- Conversions.
  | .boolToInt => do
    let x ← check (boolOperand op (← register b))
    assign a (.int (truthNumber x))
  | .intToBool => do
    let x ← check (intOperand op (← register b))
    assign a (.bool (x != 0))
  | .intToFloat => do
    let x ← check (intOperand op (← register b))
    assign a (.float (Binary32.ofInt32 x))
  | .floatToInt => do
    let x ← check (floatOperand op (← register b))
    assign a (.int x.toInt32)
  -- Objects.
  | .newObject => do assign a (← alloc (.plain {}))
  | .extend => do assign a (← extend (← register b))
  -- Boxes.
  | .boxBool => do
    let x ← check (boolOperand op (← register b))
    assign a (← alloc (.boxed (.bool x)))
  | .boxInt => do
    let x ← check (intOperand op (← register b))
    assign a (← alloc (.bignum (Bignum.ofInt32 x)))
  | .boxFloat => do
    let x ← check (floatOperand op (← register b))
    assign a (← alloc (.boxed (.float x)))
  | .unbox => do
    let boxed ← register b
    assign a (← look (·.machine.unbox boxed))
  -- Locks.
  | .lock => do
    let value ← register a
    lock (← look (·.machine.lockKey value))
  | .unlock => do
    let value ← register a
    andNext (unlock (← look (·.machine.lockKey value)))
  -- Containers.
  | .arrayNew => do assign a (← newArray immediate)
  | .arrayNewIndirect => do
    let length ← check (indexOperand op (← register b))
    assign a (← newArray length)
  | .arrayGet => do
    let container ← register b
    let key ← register c
    assign a (← look (·.machine.containerGet container key))
  | .arraySet => do
    let container ← register a
    andNext (containerSet container (← register b) (← register c))
  | .arrayDelete => do andNext (containerErase (← register a) (← register b))
  -- Try contexts.
  | .newTry => do
    let finalizer ← check target
    andNext (alter (·.openTry (some finalizer)))
  | .newTryIndirect => do
    let finalizer ← check (targetOperand program (← register a))
    andNext (alter (·.openTry (some finalizer)))
  | .newTryNoFinal => andNext (alter (·.openTry none))
  | .addCatch => do andNext (addCatch a (← check target))
  | .addCatchIndirect => do
    andNext (addCatch a (← check (targetOperand program (← register b))))
  | .throw => do fail (.uncaught (← register a))
  | .endTry => do
    match ← endTry with
    | some finalizer => return .jump finalizer
    | none => return .next
  -- Functions.
  | .declareFunction => do assign a (← check (Machine.functionValue program immediate))
  | .declareFunctionIndirect => do
    let index ← check (indexOperand op (← register b))
    assign a (← check (Machine.functionValue program index))

end InPlace

end RegisterMachine
