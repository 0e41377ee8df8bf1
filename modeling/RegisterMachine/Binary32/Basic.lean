import RegisterMachine.Power

/-!
# Single-precision numbers

A number in the binary32 format of IEEE 754, kept as its 32 bits so that every not-a-number keeps
its own. `Binary32.read` says what the bits stand for; rounding to nearest, ties to even, is the
only way back from an exact ratio.
-/

namespace RegisterMachine

/-- A binary32 number as its bits. -/
structure Binary32 where
  bits : UInt32
  deriving DecidableEq, Repr

namespace Binary32

/-- What the bits of a number stand for. -/
inductive Reading where
  | nan
  | infinite (negative : Bool)
  | finite (negative : Bool) (mantissa : Nat) (exponent : Int)
  deriving DecidableEq, Repr

def signBit (x : Binary32) : Bool :=
  x.bits &&& 0x80000000 != 0

def magnitude (x : Binary32) : Nat :=
  (x.bits &&& 0x7fffffff).toNat

/-- The magnitude bits of an infinity. Larger ones are not numbers. -/
def infinityBits : Nat := 0x7f800000

def read (x : Binary32) : Reading :=
  if x.magnitude > infinityBits then .nan
  else if x.magnitude = infinityBits then .infinite x.signBit
  else
    let exponent : Nat := x.magnitude / 2 ^ 23
    let fraction := x.magnitude % 2 ^ 23
    if exponent = 0 then .finite x.signBit fraction (-149)
    else .finite x.signBit (fraction + 2 ^ 23) ((exponent : Int) - 150)

def ofMagnitude (negative : Bool) (magnitude : Nat) : Binary32 :=
  ⟨UInt32.ofNat magnitude ||| (if negative then 0x80000000 else 0)⟩

def nan : Binary32 := ⟨0x7fc00000⟩

/-- A zero of either sign. -/
def zero (negative : Bool) : Binary32 :=
  ofMagnitude negative 0

/-- An infinity of either sign. -/
def infinity (negative : Bool) : Binary32 :=
  ofMagnitude negative infinityBits

def one : Binary32 := ⟨0x3f800000⟩

instance : Inhabited Binary32 :=
  ⟨zero false⟩

def isNan (x : Binary32) : Bool :=
  x.magnitude > infinityBits

/-- Whether the number is a zero of either sign. -/
def isZero (x : Binary32) : Bool :=
  x.magnitude == 0

def neg (x : Binary32) : Binary32 :=
  ⟨x.bits ^^^ 0x80000000⟩

/-! ## Order -/

/-- The place of a number in the order of numbers; both zeros have the same place. -/
def rank (x : Binary32) : Int :=
  if x.signBit then -(x.magnitude : Int) else x.magnitude

/-- The order of two numbers, none if either is not a number. -/
def compare? (x y : Binary32) : Option Ordering :=
  if x.isNan || y.isNan then none else some (compare x.rank y.rank)

/-- The place of a bit pattern in the total order: a negative zero comes before a positive one, and
the not-a-numbers are at both ends. -/
def totalRank (x : Binary32) : Int :=
  if x.signBit then -(x.magnitude : Int) - 1 else x.magnitude

def totalCompare (x y : Binary32) : Ordering :=
  compare x.totalRank y.totalRank

/-- Equality of numbers: both zeros are equal, and not-a-number equals nothing. -/
def numericEq (x y : Binary32) : Bool :=
  x.compare? y == some .eq

/-! ## Rounding -/

/-- The quotient rounded to the nearest integer, a half to the even neighbour. -/
def roundDiv (num den : Nat) : Nat :=
  let quotient := num / den
  let remainder := num % den
  if 2 * remainder < den then quotient
  else if den < 2 * remainder then quotient + 1
  else if quotient % 2 = 0 then quotient
  else quotient + 1

/-- The ratio `num / (den * 2 ^ exponent)` as numerator and denominator. -/
def unscale (num den : Nat) (exponent : Int) : Nat × Nat :=
  (num * 2 ^ (-exponent).toNat, den * 2 ^ exponent.toNat)

/-- The magnitude bits nearest to a ratio, a tie going to the even pattern. The exponent is chosen
so that the mantissa has 24 bits, or as small as the format allows; a mantissa that rounds up to 25
bits carries into the exponent. -/
def roundRatio (num den : Nat) : Nat :=
  if num = 0 then 0
  else
    let guess : Int := (num.log2 : Int) - (den.log2 : Int) - 24
    let scaled := unscale num den guess
    let exponent := max (-149) (if scaled.1 / scaled.2 < 2 ^ 24 then guess else guess + 1)
    let scaled := unscale num den exponent
    min infinityBits ((exponent + 149).toNat * 2 ^ 23 + roundDiv scaled.1 scaled.2)

def ofRatio (negative : Bool) (num den : Nat) : Binary32 :=
  ofMagnitude negative (roundRatio num den)

/-- The number nearest to `mantissa * 2 ^ exponent` with a sign. -/
def ofScaled (negative : Bool) (mantissa : Nat) (exponent : Int) : Binary32 :=
  ofRatio negative (mantissa * 2 ^ exponent.toNat) (2 ^ (-exponent).toNat)

end Binary32

end RegisterMachine
