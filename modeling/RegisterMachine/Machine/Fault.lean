import RegisterMachine.Instruction.Word
import RegisterMachine.Lock
import RegisterMachine.Native.Basic
import RegisterMachine.Program.Basic

/-!
# Faults

Why a run ends without a result. A thrown value that nothing catches is one of the reasons; all
others cannot be caught by a program.
-/

namespace RegisterMachine

/-- A value of the wrong type. -/
inductive TypeProblem where
  | operand (op : Opcode) (expected got : String)
  | noMethod (name : String)
  | fieldKey (got : String)
  | readField (key got : String)
  | writeField (key got : String)
  | jumpTarget (got : String)
  | elementIndex (got : String)
  | noOrder (op : Opcode) (first second : String)
  deriving DecidableEq, Repr

def TypeProblem.message : TypeProblem → String
  | .operand op expected got => s!"{op.name} expects {expected}, got {got}"
  | .noMethod name => s!"no method '{name}' on this"
  | .fieldKey got => s!"field key must be a string, got {got}"
  | .readField key got => s!"cannot read field '{key}' of {got}"
  | .writeField key got => s!"cannot write field '{key}' of {got}"
  | .jumpTarget got => s!"jump target must be an int, got {got}"
  | .elementIndex got => s!"element index must be an int, got {got}"
  | .noOrder op first second => s!"{op.name} cannot order {first} and {second}"

/-- Why a run ends without a result. -/
inductive Fault where
  | invalidOpcode (opcode : UInt8) (pc : Nat)
  | invalidRegister (register : UInt8)
  | pcOutOfBounds (pc : Nat)
  | invalidJumpTarget (target : Int)
  | invalidConstant (index : Nat)
  | invalidFunction (index : Nat)
  | invalidModule (message : String)
  | divisionByZero
  | negativeShift (count : Int32)
  | negativeExponent (exponent : Int32)
  | integerOverflow
  | bignum (cause : BignumError)
  | heap (cause : HeapError)
  | stackOverflow
  | scratchLimitExceeded (index : Nat)
  | arrayTooLarge (length : Nat)
  | allocationFailed
  | callDepthExceeded (limit : Nat)
  | stackUnderflow
  | tooManyArguments (count : Nat)
  | argumentIndexOutOfRange (index : Nat)
  | indexOutOfRange (index : Int) (length : Nat)
  | type (problem : TypeProblem)
  | notCallable (typeName : String)
  | unknownNative (name : String)
  | native (name : String) (cause : NativeError)
  | noTryContext
  | lock (cause : LockError)
  | stepBudgetExceeded (limit : Nat)
  | frameHalted
  | noEntryPoint
  | functionNotFound (name : String)
  | uncaught (value : Value)
  deriving DecidableEq, Repr

namespace Fault

def message : Fault → String
  | .invalidOpcode opcode pc =>
    "Invalid opcode " ++ Instruction.byteText opcode ++ s!" at pc {pc}"
  | .invalidRegister register => s!"Invalid register r{register}"
  | .pcOutOfBounds pc => s!"Program counter {pc} is outside the code"
  | .invalidJumpTarget target => s!"Invalid jump target {target}"
  | .invalidConstant index => s!"Invalid constant #{index}"
  | .invalidFunction index => s!"Invalid function #{index}"
  | .invalidModule message => s!"Invalid module: {message}"
  | .divisionByZero => "Division by zero"
  | .negativeShift count => s!"Negative shift count {count.toInt}"
  | .negativeExponent exponent => s!"Negative exponent {exponent.toInt}"
  | .integerOverflow => "Integer overflow while unboxing"
  | .bignum cause => s!"Bignum error: {cause.message}"
  | .heap cause => s!"Heap error: {cause.message}"
  | .stackOverflow => "Stack overflow"
  | .scratchLimitExceeded index => s!"Scratch slot {index} exceeds the configured limit"
  | .arrayTooLarge length => s!"Array length {length} exceeds the configured limit"
  | .allocationFailed => "Failed to allocate frame storage"
  | .callDepthExceeded limit => s!"Call depth limit {limit} exceeded"
  | .stackUnderflow => "Stack underflow"
  | .tooManyArguments count => s!"Cannot reserve {count} argument slots"
  | .argumentIndexOutOfRange index => s!"Argument index {index} out of range"
  | .indexOutOfRange index length => s!"Index {index} out of range for length {length}"
  | .type problem => s!"Type error: {problem.message}"
  | .notCallable typeName => s!"Value of type {typeName} is not callable"
  | .unknownNative name => s!"Unknown native function '{name}'"
  | .native name cause => s!"Native function '{name}' failed: {cause.message}"
  | .noTryContext => "No open try context"
  | .lock cause => s!"Lock error: {cause.message}"
  | .stepBudgetExceeded limit => s!"Step budget of {limit} instructions exhausted"
  | .frameHalted => "Frame has already halted"
  | .noEntryPoint => "Module has no entry point"
  | .functionNotFound name => s!"Function '{name}' not found"
  | .uncaught value => s!"Uncaught exception: {value.text}"

/-- The wording of what is behind a fault, if something is. -/
def cause? : Fault → Option String
  | .bignum cause => some cause.message
  | .heap cause => some cause.message
  | .native _ cause => some cause.message
  | .lock cause => some cause.message
  | _ => none

/-- A coarse classification of faults. -/
inductive Category where
  | allocation
  | domain
  | decode
  | callDepth
  | runtime
  deriving DecidableEq, Repr

def category : Fault → Category
  | .invalidOpcode _ _ | .invalidRegister _ | .pcOutOfBounds _ | .invalidJumpTarget _
  | .invalidConstant _ | .invalidFunction _ | .invalidModule _ => .decode
  | .divisionByZero | .negativeShift _ | .negativeExponent _ | .integerOverflow => .domain
  | .bignum .capacityOverflow | .bignum (.allocationFailed _) => .allocation
  | .bignum _ => .domain
  | .heap (.danglingReference _) => .runtime
  | .heap _ | .stackOverflow | .scratchLimitExceeded _ | .arrayTooLarge _ | .allocationFailed =>
    .allocation
  | .callDepthExceeded _ => .callDepth
  | _ => .runtime

end Fault

end RegisterMachine
