import RegisterMachine.Bignum.Arithmetic

/-!
# Shifts and bitwise operations

Bitwise operations act on the infinite two's complement form of a value. Both operands are written
in a common width, one limb wider than the wider magnitude so that the top bit is the sign, combined
limb by limb, and read back.
-/

namespace RegisterMachine.Bignum

/-! ## Shifts -/

/-- A shift count has to be positive and to fit 32 bits. -/
def shiftCount (count : Bignum) : Except BignumError UInt32 :=
  if count.isZero || count.isNegative then .error .invalidShift
  else
    match count.toUInt32? with
    | some bits => .ok bits
    | none => .error .shiftTooLarge

def shiftLeftBits (a : Bignum) (bits : UInt32) : Bignum :=
  { a with limbs := Magnitude.shiftLeft a.limbs bits }

/-- The quotient by a power of two, rounded down. For a negative value it is found from
`⌊-m / 2ⁿ⌋ = -(⌊(m - 1) / 2ⁿ⌋ + 1)`. -/
def shiftRightBits (a : Bignum) (bits : UInt32) : Bignum :=
  if a.isNegative then
    { a with limbs := Magnitude.inc (Magnitude.shiftRight (Magnitude.dec a.limbs) bits) }
  else clearZeroSign { a with limbs := Magnitude.shiftRight a.limbs bits }

def logicalShiftRightBits (a : Bignum) (bits : UInt32) : Bignum :=
  ⟨Magnitude.shiftRight a.limbs bits, false⟩

def shiftLeft (a count : Bignum) : Except BignumError Bignum := do
  return a.shiftLeftBits (← shiftCount count)

def shiftRight (a count : Bignum) : Except BignumError Bignum := do
  return a.shiftRightBits (← shiftCount count)

def logicalShiftRight (a count : Bignum) : Except BignumError Bignum := do
  return a.logicalShiftRightBits (← shiftCount count)

/-! ## Two's complement -/

/-- The complement of `-x`, that is `-x - 1`. -/
def complement (a : Bignum) : Bignum :=
  a.neg.dec

/-- Negates a two's complement number: complements every limb and adds the carry. -/
def negateLimbs : List UInt32 → Bool → List UInt32
  | [], _ => []
  | limb :: rest, true => (~~~limb + 1) :: negateLimbs rest (~~~limb + 1 == 0)
  | limb :: rest, false => ~~~limb :: negateLimbs rest false

/-- The two's complement form in a width of at least the magnitude's. -/
def toTwos (a : Bignum) (width : Nat) : List UInt32 :=
  let padded := a.limbs ++ List.replicate (width - a.limbs.length) 0
  if a.isNegative then negateLimbs padded true else padded

/-- Reads a two's complement form, whose top bit is the sign. -/
def ofTwos (limbs : List UInt32) : Bignum :=
  let negative := (limbs.getLast?.getD 0) &&& 0x80000000 != 0
  ⟨Magnitude.normalize (if negative then negateLimbs limbs true else limbs), negative⟩

/-- Combines two values limb by limb in two's complement. -/
def bitwise (op : UInt32 → UInt32 → UInt32) (a b : Bignum) : Bignum :=
  let width := max a.limbs.length b.limbs.length + 1
  ofTwos (List.zipWith op (a.toTwos width) (b.toTwos width))

def and (a b : Bignum) : Bignum :=
  bitwise (· &&& ·) a b

/-- The bits that either value has. -/
def or (a b : Bignum) : Bignum :=
  bitwise (· ||| ·) a b

def xor (a b : Bignum) : Bignum :=
  bitwise (· ^^^ ·) a b

end RegisterMachine.Bignum
