import RegisterMachine.Binary32.Arithmetic
import RegisterMachine.Machine.Fault

/-!
# Arithmetic of the machine

Integers wrap at 32 bits. Comparisons for jumps treat integers and floats as numbers, truth values
as zero and one beside integers, and everything else only as equal or not.
-/

namespace RegisterMachine

def truthNumber (value : Bool) : Int32 :=
  if value then 1 else 0

/-! ## Integers -/

/-- The power of an integer by squaring, wrapping at 32 bits; the bits of the exponent are taken
from the lowest up. -/
def powWith (base : Int32) : Nat → Nat → Int32
  | 0, _ => 1
  | bits + 1, exponent =>
    let rest := powWith (base * base) bits (exponent / 2)
    if exponent % 2 = 1 then base * rest else rest

/-- A shift count, which cannot be negative. -/
def shiftCount (count : Int32) : Except Fault Nat :=
  if count < 0 then .error (.negativeShift count) else .ok count.toInt.toNat

/-- A divisor, which cannot be zero. -/
def divisor (value : Int32) : Except Fault Int32 :=
  if value = 0 then .error .divisionByZero else .ok value

def IntBinary.apply (op : IntBinary) (x y : Int32) : Except Fault Int32 :=
  match op with
  | .add => .ok (x + y)
  | .sub => .ok (x - y)
  | .mul => .ok (x * y)
  | .div => do return x / (← divisor y)
  | .rem => do return x % (← divisor y)
  | .mod => do
    let remainder := x % (← divisor y)
    return if remainder ≠ 0 ∧ (remainder < 0) ≠ (y < 0) then remainder + y else remainder
  | .shl | .lsl => do
    let count ← shiftCount y
    return if count ≥ 32 then 0 else x <<< Int32.ofNat count
  | .shr => do
    let count ← shiftCount y
    return x >>> Int32.ofNat (min count 31)
  | .lsr => do
    let count ← shiftCount y
    return if count ≥ 32 then 0 else (x.toUInt32 >>> UInt32.ofNat count).toInt32
  | .and => .ok (x &&& y)
  | .or => .ok (x ||| y)
  | .xor => .ok (x ^^^ y)
  | .cmp => .ok (Value.orderNumber (compare x.toInt y.toInt))
  | .pow => if y < 0 then .error (.negativeExponent y) else .ok (powWith x 32 y.toInt.toNat)

/-! ## Truth values and floats -/

def BoolBinary.apply (op : BoolBinary) (x y : Bool) : Value :=
  match op with
  | .and => .bool (x && y)
  | .or => .bool (x || y)
  | .xor => .bool (x != y)
  | .cmp => .ofOrdering (compare x.toNat y.toNat)

def FloatBinary.apply (op : FloatBinary) (x y : Binary32) : Value :=
  match op with
  | .add => .float (x.add y)
  | .sub => .float (x.sub y)
  | .mul => .float (x.mul y)
  | .div => .float (x.div y)
  | .pow => .float (x.pow y)
  | .atan2 => .float (x.atan2 y)
  | .cmp => .ofOrdering (x.totalCompare y)

def FloatUnary.apply (op : FloatUnary) (x : Binary32) : Binary32 :=
  match op with
  | .sqrt => x.sqrt
  | .exp => x.exp
  | .log2 => x.log2
  | .log10 => x.log10
  | .ln => x.ln
  | .sin => x.sin
  | .cos => x.cos
  | .tan => x.tan
  | .asin => x.asin
  | .acos => x.acos
  | .atan => x.atan
  | .neg => x.neg

/-! ## Comparison -/

/-- What comparing two values comes to. -/
inductive Comparison where
  | ordered (order : Ordering)
  | unordered
  | incomparable
  deriving DecidableEq, Repr

def Comparison.ofFloats (x y : Binary32) : Comparison :=
  match x.compare? y with
  | some order => .ordered order
  | none => .unordered

def Value.compareNumbers : Value → Value → Comparison
  | .int x, .int y => .ordered (compare x.toInt y.toInt)
  | .bool x, .bool y => .ordered (compare x.toNat y.toNat)
  | .float x, .float y => .ofFloats x y
  | .int x, .float y => .ofFloats (Binary32.ofInt32 x) y
  | .float x, .int y => .ofFloats x (Binary32.ofInt32 y)
  | .bool x, .int y => .ordered (compare (truthNumber x).toInt y.toInt)
  | .int x, .bool y => .ordered (compare x.toInt (truthNumber y).toInt)
  | _, _ => .incomparable

def Condition.holds : Condition → Ordering → Bool
  | .eq, order => order == .eq
  | .ne, order => order != .eq
  | .lt, order => order == .lt
  | .le, order => order != .gt
  | .gt, order => order == .gt
  | .ge, order => order != .lt

/-- Whether two values meet the condition of a jump. Values without an order can only be the same or
not; not-a-number differs from everything. -/
def Condition.test (condition : Condition) (op : Opcode) (x y : Value) : Except Fault Bool :=
  match x.compareNumbers y, condition with
  | .ordered order, _ => .ok (condition.holds order)
  | .unordered, _ => .ok (condition = .ne)
  | .incomparable, .eq => .ok (x = y)
  | .incomparable, .ne => .ok (x ≠ y)
  | .incomparable, _ => .error (.type (.noOrder op x.typeName y.typeName))

end RegisterMachine
