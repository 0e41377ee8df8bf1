import RegisterMachine.Bignum.Numeral
import RegisterMachine.Bytes.Codec
import RegisterMachine.Heap.Basic

/-!
# Host functions

A host function sees the heap, the receiver, the arguments and the output of the machine that calls
it, and answers with a value or a failure and with what became of heap and output. The output goes
to a sink of the host, which may take a part of what it is handed and then fail.
-/

namespace RegisterMachine

/-- Why a host function fails. -/
inductive NativeError where
  | typeMismatch (expected got : String)
  | argumentCount (expected got : Nat)
  | argumentError (message : String)
  | heap (cause : HeapError)
  | bignum (cause : BignumError)
  | output (reason : String)
  deriving DecidableEq, Repr

def NativeError.message : NativeError → String
  | .typeMismatch expected got => s!"Type mismatch: expected {expected}, got {got}"
  | .argumentCount expected got => s!"Expected {expected} arguments, got {got}"
  | .argumentError message => s!"Argument error: {message}"
  | .heap cause => cause.message
  | .bignum cause => cause.message
  | .output reason => s!"I/O error: {reason}"

/-! ## The output -/

/-- What a sink answers when it is handed bytes: that it takes so many of them, that it was
interrupted and has taken none, or why it takes none. -/
inductive SinkAnswer where
  | take (count : Nat)
  | interrupted
  | fail (reason : String)
  deriving DecidableEq, Repr

/-- What a machine has written, and the sink that its host has given it. The sink answers as
planned, and after that takes whatever it is handed, or nothing any more if it is broken. -/
structure Output where
  written : ByteArray := .empty
  plan : List SinkAnswer := []
  broken : Option String := none

-- The library has two ways to compare byte arrays; their bytes have one.
instance : DecidableEq Output := fun first second =>
  decidable_of_iff
    (first.written.data = second.written.data ∧ first.plan = second.plan ∧
      first.broken = second.broken)
    (by
      obtain ⟨⟨written⟩, plan, broken⟩ := first
      obtain ⟨⟨written'⟩, plan', broken'⟩ := second
      simp)

namespace Output

/-- What has been written, as far as it is a text. -/
def text (output : Output) : String :=
  (String.fromUTF8? output.written).getD ""

def append (output : Output) (bytes : List UInt8) : Output :=
  { output with written := output.written ++ bytes.toByteArray }

/-- Hands bytes to the sink, given its plan, until it has taken them all or takes none. When it was
interrupted it is asked again; what it has taken before a failure it keeps. -/
def offer : List SinkAnswer → List UInt8 → Output → Except String Unit × Output
  | _, [], output => (.ok (), output)
  | [], bytes, output =>
    match output.broken with
    | none => (.ok (), output.append bytes)
    | some reason => (.error reason, output)
  | .take count :: plan, bytes, output =>
    if count = 0 then (.error "failed to write whole buffer", { output with plan })
    else offer plan (bytes.drop count) ({ output with plan }.append (bytes.take count))
  | .interrupted :: plan, bytes, output => offer plan bytes { output with plan }
  | .fail reason :: plan, _, output => (.error reason, { output with plan })

/-- Writes texts one after the other, up to the first that is not taken whole. -/
def write : List String → Output → Except NativeError Unit × Output
  | [], output => (.ok (), output)
  | text :: texts, output =>
    match offer output.plan (Bytes.ofText text) output with
    | (.ok _, output) => write texts output
    | (.error reason, output) => (.error (.output reason), output)

end Output

/-! ## Calls -/

/-- What a host function sees. -/
structure NativeCall where
  heap : Heap
  receiver : Value
  arguments : List Value
  output : Output

/-- What a host function answers, and what it leaves. -/
structure NativeResult where
  answer : Except NativeError Value
  heap : Heap
  output : Output

/-- The value of the answer, null if the function has failed. -/
def NativeResult.value (result : NativeResult) : Value :=
  result.answer.toOption.getD .null

/-- A host function. One that fails leaves everything as it was, or its result says what it leaves.
-/
abbrev Native := NativeCall → Except NativeError NativeResult

namespace NativeCall

def unchanged (call : NativeCall) (value : Value) : NativeResult :=
  ⟨.ok value, call.heap, call.output⟩

def argument (call : NativeCall) (index : Nat) : Except NativeError Value :=
  match call.arguments[index]? with
  | some value => .ok value
  | none => .error (.argumentCount (index + 1) call.arguments.length)

def expectCount (call : NativeCall) (count : Nat) : Except NativeError Unit :=
  if call.arguments.length = count then .ok ()
  else .error (.argumentCount count call.arguments.length)

def object (call : NativeCall) (handle : Handle) : Except NativeError HeapObject :=
  match call.heap.get handle with
  | .ok object => .ok object
  | .error cause => .error (.heap cause)

def intArgument (call : NativeCall) (index : Nat) : Except NativeError Int32 := do
  match ← call.argument index with
  | .int value => return value
  | other => throw (.typeMismatch "int" other.typeName)

def bignumArgument (call : NativeCall) (index : Nat) : Except NativeError Bignum := do
  match ← call.argument index with
  | .int value => return Bignum.ofInt32 value
  | .object handle =>
    match ← call.object handle with
    | .bignum value => return value
    | other => throw (.typeMismatch "bigint" other.typeName)
  | other => throw (.typeMismatch "bigint" other.typeName)

def stringArgument (call : NativeCall) (index : Nat) : Except NativeError String := do
  match ← call.argument index with
  | .object handle =>
    match ← call.object handle with
    | .str value => return value
    | other => throw (.typeMismatch "string" other.typeName)
  | other => throw (.typeMismatch "string" other.typeName)

def alloc (call : NativeCall) (object : HeapObject) : Except NativeError NativeResult :=
  match call.heap.alloc object with
  | .ok (handle, heap) => .ok ⟨.ok (.object handle), heap, call.output⟩
  | .error cause => .error (.heap cause)

def allocBignum (call : NativeCall) : Except BignumError Bignum → Except NativeError NativeResult
  | .ok value => call.alloc (.bignum value)
  | .error cause => .error (.bignum cause)

end NativeCall

/-- The host functions of a machine by number. Each has a name of its own. -/
structure NativeTable where
  entries : Array (String × Native) := #[]

namespace NativeTable

def size (table : NativeTable) : Nat :=
  table.entries.size

def lookup? (table : NativeTable) (name : String) : Option UInt32 :=
  (table.entries.findIdx? (·.1 == name)).map UInt32.ofNat

def get? (table : NativeTable) (id : UInt32) : Option (String × Native) :=
  table.entries[id.toNat]?

/-- Registers a function under a name. A name that is known keeps its number. -/
def register (table : NativeTable) (name : String) (function : Native) : UInt32 × NativeTable :=
  match table.entries.findIdx? (·.1 == name) with
  | some index => (UInt32.ofNat index, ⟨table.entries.setIfInBounds index (name, function)⟩)
  | none => (UInt32.ofNat table.size, ⟨table.entries.push (name, function)⟩)

end NativeTable

end RegisterMachine
