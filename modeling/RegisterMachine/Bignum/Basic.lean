import RegisterMachine.Bignum.Error
import RegisterMachine.Bignum.Magnitude

/-!
# Bignums

An integer of any size as a sign flag and a magnitude. Zero may carry either flag; the two zeros
compare equal and neither is negative. `Bignum.toInt` is the integer meant.
-/

namespace RegisterMachine

/-- An integer as a magnitude and a sign flag. -/
structure Bignum where
  limbs : Magnitude
  negative : Bool
  deriving DecidableEq, Repr

namespace Bignum

def toInt (n : Bignum) : Int :=
  if n.negative then -(n.limbs.value : Int) else n.limbs.value

def zero : Bignum :=
  ⟨[0], false⟩

instance : Inhabited Bignum :=
  ⟨zero⟩

/-- The bignum of a list of limbs, which need not be canonical, and a sign flag. -/
def ofLimbs (limbs : List UInt32) (negative : Bool) : Bignum :=
  ⟨Magnitude.normalize limbs, negative⟩

/-- Zero with storage set aside for a number of limbs: at least one, and no more than half of a
64-bit address space holds. -/
def withCapacity (capacity : Nat) : Except BignumError Bignum :=
  if capacity = 0 then .error .zeroCapacity
  else if capacity * 4 > 2 ^ 63 - 1 then .error (.allocationFailed capacity)
  else .ok zero

def ofUInt64 (n : UInt64) : Bignum :=
  ofLimbs [n.toUInt32, (n >>> 32).toUInt32] false

def ofInt64 (n : Int64) : Bignum :=
  ⟨(ofUInt64 (UInt64.ofNat n.toInt.natAbs)).limbs, n < 0⟩

def ofUInt32 (n : UInt32) : Bignum :=
  ⟨[n], false⟩

def ofInt32 (n : Int32) : Bignum :=
  ⟨[UInt32.ofNat n.toInt.natAbs], n < 0⟩

/-- Whether the value is zero, whatever the flag. -/
def isZero (n : Bignum) : Bool :=
  Magnitude.isZero n.limbs

def isNegative (n : Bignum) : Bool :=
  n.negative && !n.isZero

def isPositive (n : Bignum) : Bool :=
  !n.negative && !n.isZero

/-- The sign as a number: one, zero or minus one. -/
def sign (n : Bignum) : Int :=
  if n.isPositive then 1 else if n.isNegative then -1 else 0

def clearZeroSign (n : Bignum) : Bignum :=
  if n.isZero then { n with negative := false } else n

/-- Compares by value; the two zeros are equal. -/
def compare (a b : Bignum) : Ordering :=
  match a.isNegative, b.isNegative with
  | true, false => .lt
  | false, true => .gt
  | false, false => Magnitude.compare a.limbs b.limbs
  | true, true => Magnitude.compare b.limbs a.limbs

def equals (a b : Bignum) : Bool :=
  a.compare b == .eq

/-- What a hash is made from: whether the value is below zero, and the limbs. -/
def hashed (n : Bignum) : Bool × Magnitude :=
  (n.isNegative, n.limbs)

/-- The value as a 64-bit integer, if it fits. No more than two limbs can, and these are put
together and given their sign on 128 bits. -/
def toInt64? (n : Bignum) : Option Int64 :=
  if n.limbs.length > 2 then none
  else
    let low := n.limbs.headD 0
    let high := n.limbs[1]?.getD 0
    let magnitude : BitVec 128 := low.toBitVec.setWidth 128 ||| high.toBitVec.setWidth 128 <<< 32
    let value := (if n.negative then -magnitude else magnitude).toInt
    if -(2 ^ 63) ≤ value ∧ value < 2 ^ 63 then some (Int64.ofInt value) else none

/-- The value as a 32-bit integer, if it fits. -/
def toInt32? (n : Bignum) : Option Int32 := do
  let wide ← n.toInt64?
  if -(2 ^ 31) ≤ wide.toInt ∧ wide.toInt < 2 ^ 31 then some (Int32.ofInt wide.toInt) else none

/-- The value as a 32-bit natural number, if it fits. -/
def toUInt32? (n : Bignum) : Option UInt32 :=
  if n.isNegative then none
  else
    match n.limbs with
    | [limb] => some limb
    | _ => none

end Bignum

end RegisterMachine
