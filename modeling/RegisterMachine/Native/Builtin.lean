import RegisterMachine.Bignum.Bitwise
import RegisterMachine.Heap.Render
import RegisterMachine.Native.Basic

/-!
# The standard host functions

Output, containers and bignum arithmetic.
-/

namespace RegisterMachine.Builtin

/-! ## Output -/

/-- The arguments apart by blanks. -/
def line (call : NativeCall) : String :=
  String.intercalate " " (call.arguments.map call.heap.render)

/-- Writes the line of the arguments, then a line end. A sink that fails keeps what it has taken. -/
def print : Native := fun call =>
  match Output.write [line call, "\n"] call.output with
  | (.ok _, output) => .ok ⟨.ok .null, call.heap, output⟩
  | (.error cause, output) =>
    if output = call.output then .error cause else .ok ⟨.error cause, call.heap, output⟩

/-! ## Containers -/

/-- The length of a string or container, if the object is one. -/
def length? : HeapObject → Option Nat
  | .str value => some value.length
  | .array items | .list items => some items.size
  | .set items => some items.length
  | .map entries => some entries.length
  | .plain object => some object.fields.length
  | .bignum _ | .boxed _ => none

def len : Native := fun call => do
  call.expectCount 1
  match ← call.argument 0 with
  | .object handle =>
    let object ← call.object handle
    match length? object with
    | none => throw (.typeMismatch "container" object.typeName)
    | some length =>
      if length < 2 ^ 31 then return call.unchanged (.int (Int32.ofNat length))
      else throw (.argumentError s!"length {length} does not fit")
  | other => throw (.typeMismatch "container" other.typeName)

def listNew : Native := fun call => call.alloc (.list #[])

def setNew : Native := fun call => call.alloc (.set [])

def mapNew : Native := fun call => call.alloc (.map [])

/-- The object of an argument that has to be an array or list, with its reference. -/
def sequenceArgument (call : NativeCall) : Except NativeError (Handle × HeapObject) := do
  match ← call.argument 0 with
  | .object handle => return (handle, ← call.object handle)
  | other => throw (.typeMismatch "array" other.typeName)

/-- Appends to an array or list; the result is the new length. -/
def push : Native := fun call => do
  call.expectCount 2
  let item ← call.argument 1
  let (handle, object) ← sequenceArgument call
  let appended (object : HeapObject) (length : Nat) : NativeResult :=
    ⟨.ok (.int (Int32.ofNat (min length (2 ^ 31 - 1)))), call.heap.put handle object, call.output⟩
  match object with
  | .array items => return appended (.array (items.push item)) (items.size + 1)
  | .list items => return appended (.list (items.push item)) (items.size + 1)
  | other => throw (.typeMismatch "array" other.typeName)

/-- Removes the last item of an array or list; the result is the item, or null. -/
def pop : Native := fun call => do
  call.expectCount 1
  let (handle, object) ← sequenceArgument call
  let removed (object : HeapObject) (item : Option Value) : NativeResult :=
    ⟨.ok (item.getD .null), call.heap.put handle object, call.output⟩
  match object with
  | .array items => return removed (.array items.pop) items.back?
  | .list items => return removed (.list items.pop) items.back?
  | other => throw (.typeMismatch "array" other.typeName)

/-! ## Bignums -/

/-- A bignum from an integer, a bignum or a decimal numeral. -/
def big : Native := fun call => do
  call.expectCount 1
  match ← call.argument 0 with
  | .object handle =>
    match ← call.object handle with
    | .str text => call.allocBignum (Bignum.parse text)
    | _ => call.allocBignum (.ok (← call.bignumArgument 0))
  | _ => call.allocBignum (.ok (← call.bignumArgument 0))

def bigBinary (op : Bignum → Bignum → Except BignumError Bignum) : Native := fun call => do
  call.expectCount 2
  let a ← call.bignumArgument 0
  let b ← call.bignumArgument 1
  call.allocBignum (op a b)

def bigShift (op : Bignum → Bignum → Except BignumError Bignum) : Native := fun call => do
  call.expectCount 2
  let a ← call.bignumArgument 0
  let count ← call.intArgument 1
  call.allocBignum (op a (Bignum.ofInt32 count))

def bigNeg : Native := fun call => do
  call.expectCount 1
  call.allocBignum (.ok (← call.bignumArgument 0).neg)

def bigCmp : Native := fun call => do
  call.expectCount 2
  let a ← call.bignumArgument 0
  let b ← call.bignumArgument 1
  return call.unchanged (.ofOrdering (a.compare b))

def bigStr : Native := fun call => do
  call.expectCount 1
  call.alloc (.str (← call.bignumArgument 0).toText)

/-! ## The table -/

def total (op : Bignum → Bignum → Bignum) (a b : Bignum) : Except BignumError Bignum :=
  .ok (op a b)

/-- The standard host functions in the order of their numbers. -/
def all : List (String × Native) :=
  [("print", print), ("len", len), ("list_new", listNew), ("set_new", setNew), ("map_new", mapNew),
    ("push", push), ("pop", pop), ("big", big), ("big_add", bigBinary (total Bignum.add)),
    ("big_sub", bigBinary (total Bignum.sub)), ("big_mul", bigBinary (total Bignum.mul)),
    ("big_div", bigBinary Bignum.div), ("big_rem", bigBinary Bignum.rem),
    ("big_mod", bigBinary Bignum.mod), ("big_and", bigBinary (total Bignum.and)),
    ("big_or", bigBinary (total Bignum.or)), ("big_xor", bigBinary (total Bignum.xor)),
    ("big_shl", bigShift Bignum.shiftLeft), ("big_shr", bigShift Bignum.shiftRight),
    ("big_neg", bigNeg), ("big_cmp", bigCmp), ("big_str", bigStr)]

def table : NativeTable :=
  ⟨all.toArray⟩

end RegisterMachine.Builtin
