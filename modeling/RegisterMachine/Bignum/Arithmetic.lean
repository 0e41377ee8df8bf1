import RegisterMachine.Bignum.Basic

/-!
# Signed arithmetic

Sums, products, quotients and steps by one. Division truncates toward zero and the remainder takes
the sign of the dividend; the modulus takes the sign of the divisor.
-/

namespace RegisterMachine.Bignum

/-- Adds a magnitude with a sign: equal signs add magnitudes, unequal signs subtract the smaller
from the larger and keep the sign of the larger. A zero result has a clear sign. -/
def addSigned (a : Bignum) (limbs : Magnitude) (negative : Bool) : Bignum :=
  let negative := negative && !Magnitude.isZero limbs
  let sum : Bignum :=
    if a.isZero then ⟨Magnitude.add a.limbs limbs, negative⟩
    else if a.isNegative = negative then { a with limbs := Magnitude.add a.limbs limbs }
    else
      match Magnitude.compare a.limbs limbs with
      | .lt => ⟨Magnitude.sub limbs a.limbs, negative⟩
      | _ => { a with limbs := Magnitude.sub a.limbs limbs }
  sum.clearZeroSign

def add (a b : Bignum) : Bignum :=
  a.addSigned b.limbs b.negative

def sub (a b : Bignum) : Bignum :=
  a.addSigned b.limbs (!b.negative)

def mul (a b : Bignum) : Bignum :=
  clearZeroSign ⟨Magnitude.mul a.limbs b.limbs, a.isNegative != b.isNegative⟩

/-- The quotient toward zero and the remainder, unless the divisor is zero. -/
def divRem (a b : Bignum) : Except BignumError (Bignum × Bignum) :=
  if b.isZero then .error .divisionByZero
  else
    let (quotient, remainder) := Magnitude.divRem a.limbs b.limbs
    .ok (clearZeroSign ⟨quotient, a.isNegative != b.isNegative⟩,
      clearZeroSign ⟨remainder, a.isNegative⟩)

def div (a b : Bignum) : Except BignumError Bignum := do
  return (← a.divRem b).1

/-- The remainder, of the sign of the dividend. -/
def rem (a b : Bignum) : Except BignumError Bignum := do
  return (← a.divRem b).2

/-- The modulus, of the sign of the divisor. -/
def mod (a b : Bignum) : Except BignumError Bignum := do
  let remainder ← a.rem b
  (remainder.add b).rem b

def neg (a : Bignum) : Bignum :=
  { a with negative := !a.negative }

def abs (a : Bignum) : Bignum :=
  { a with negative := false }

def inc (a : Bignum) : Bignum :=
  if a.isNegative then clearZeroSign { a with limbs := Magnitude.dec a.limbs }
  else ⟨Magnitude.inc a.limbs, false⟩

def dec (a : Bignum) : Bignum :=
  if a.isZero then ⟨[1], true⟩
  else if a.isNegative then { a with limbs := Magnitude.inc a.limbs }
  else { a with limbs := Magnitude.dec a.limbs }

end RegisterMachine.Bignum
