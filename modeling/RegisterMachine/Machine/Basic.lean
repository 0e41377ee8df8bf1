import RegisterMachine.Heap.Collect
import RegisterMachine.Machine.Frame
import RegisterMachine.Native.Builtin

/-!
# Machines

A machine owns a heap, host functions and an output, shares a table of locks with others, and counts
its nested frames and executed instructions.
-/

namespace RegisterMachine

/-- The number tells machines apart. The depth counts the frames being executed, and the steps are
the instructions executed since the last run began. -/
structure Machine where
  id : MachineId := 0
  options : Options := {}
  heap : Heap := {}
  natives : NativeTable := Builtin.table
  locks : LockTable := {}
  output : Output := {}
  depth : Nat := 0
  steps : Nat := 0

namespace Machine

def new (options : Options) (id : MachineId) : Machine :=
  { id, options, heap := { limit := options.limits.maxHeapObjects } }

def alloc (machine : Machine) (object : HeapObject) : Except Fault (Value × Machine) :=
  match machine.heap.alloc object with
  | .ok (handle, heap) => .ok (.object handle, { machine with heap })
  | .error cause => .error (.heap cause)

def object (machine : Machine) (handle : Handle) : Except Fault HeapObject :=
  match machine.heap.get handle with
  | .ok object => .ok object
  | .error cause => .error (.heap cause)

def put (machine : Machine) (handle : Handle) (object : HeapObject) : Machine :=
  { machine with heap := machine.heap.put handle object }

/-- The name of the type of a value, which for a living object is the type of the object. -/
def describe (machine : Machine) : Value → String
  | .object handle =>
    match machine.heap.get handle with
    | .ok object => object.typeName
    | .error _ => "object"
  | value => value.typeName

/-! ## Constants and functions -/

/-- The value of a constant; strings and bignums are new objects. -/
def loadConstant (machine : Machine) (program : Program) (index : Nat) :
    Except Fault (Value × Machine) :=
  match program.constants.get? index with
  | none => .error (.invalidConstant index)
  | some (.int value) => .ok (.int value, machine)
  | some (.float value) => .ok (.float value, machine)
  | some (.str value) => machine.alloc (.str value)
  | some (.big value) => machine.alloc (.bignum value)
  | some (.native name) =>
    match machine.natives.lookup? name with
    | some id => .ok (.native id, machine)
    | none => .error (.unknownNative name)

def fieldName (program : Program) (index : Nat) : Except Fault String :=
  match program.constants.getString? index with
  | some name => .ok name
  | none => .error (.invalidConstant index)

def functionValue (program : Program) (index : Nat) : Except Fault Value :=
  if index < program.functions.size ∧ index < 2 ^ 16 then .ok (.function (UInt16.ofNat index))
  else .error (.invalidFunction index)

/-! ## Fields -/

def stringKey (machine : Machine) (key : Value) : Except Fault String := do
  if let .object handle := key then
    if let .str name ← machine.object handle then
      return name
  throw (.type (.fieldKey (machine.describe key)))

/-- The value of a field, or null. -/
def loadField (machine : Machine) (target : Value) (key : String) : Except Fault Value := do
  if let .object handle := target then
    if let .plain _ ← machine.object handle then
      match machine.heap.getField handle key with
      | .ok value => return value.getD .null
      | .error cause => throw (.heap cause)
  throw (.type (.readField key (machine.describe target)))

def storeField (machine : Machine) (target : Value) (key : String) (value : Value) :
    Except Fault Machine := do
  if let .object handle := target then
    if let .plain object ← machine.object handle then
      let fields := Entries.insert object.fields key value
      return machine.put handle (.plain { object with fields })
  throw (.type (.writeField key (machine.describe target)))

/-- An empty object with a prototype, which has to be an object with fields. -/
def extend (machine : Machine) (prototype : Value) : Except Fault (Value × Machine) := do
  if let .object handle := prototype then
    if let .plain _ ← machine.object handle then
      return ← machine.alloc (.plain { prototype := some handle })
  throw (.type (.operand .extend "object" prototype.typeName))

/-! ## Boxes and locks -/

/-- The value in a box, or the integer of a bignum that fits a register. -/
def unbox (machine : Machine) (value : Value) : Except Fault Value := do
  if let .object handle := value then
    match ← machine.object handle with
    | .boxed inner => return inner
    | .bignum number =>
      match number.toInt32? with
      | some small => return .int small
      | none => throw .integerOverflow
    | _ => pure ()
  throw (.type (.operand .unbox "boxed value" (machine.describe value)))

/-- What a value locks: a number, or a living object. -/
def lockKey (machine : Machine) (value : Value) : Except Fault LockKey :=
  match value with
  | .int number => .ok (.number number)
  | .object handle => do
    let _ ← machine.object handle
    return .object machine.id handle
  | other => .error (.type (.operand .lock "int or object" other.typeName))

def unlock (machine : Machine) (key : LockKey) : Except Fault Machine :=
  match machine.locks.unlock key machine.id with
  | .ok locks => .ok { machine with locks }
  | .error cause => .error (.lock cause)

/-! ## Host functions -/

/-- Calls a host function: what it answers, and the machine with what it leaves. -/
def callNative (machine : Machine) (id : UInt32) (receiver : Value) (arguments : List Value) :
    Except Fault Value × Machine :=
  match machine.natives.get? id with
  | none => (.error (.unknownNative s!"#{id}"), machine)
  | some (name, function) =>
    match function ⟨machine.heap, receiver, arguments, machine.output⟩ with
    | .error cause => (.error (.native name cause), machine)
    | .ok result =>
      (result.answer.mapError (.native name),
        { machine with heap := result.heap, output := result.output })

end Machine

end RegisterMachine
