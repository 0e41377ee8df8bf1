import RegisterMachine.Power

/-!
# Magnitudes

A magnitude is a natural number as a list of 32-bit limbs, least significant first. The operations
work limb by limb with 64-bit intermediates, as a machine would; `Magnitude.value` is the number
they stand for. A magnitude is *canonical* when it has at least one limb and its most significant
limb is not zero, the single zero limb excepted. Room for limbs is always found, so the operations
fail for nothing but their operands.
-/

namespace RegisterMachine

/-- A natural number as 32-bit limbs, least significant first. -/
abbrev Magnitude := List UInt32

namespace Magnitude

def value : Magnitude → Nat
  | [] => 0
  | limb :: rest => limb.toNat + 2 ^ 32 * value rest

/-- At least one limb, and no zero limb at the top unless it is the only one. -/
def Canonical (limbs : Magnitude) : Prop :=
  limbs ≠ [] ∧ (limbs.getLast? = some 0 → limbs = [0])

instance (limbs : Magnitude) : Decidable (Canonical limbs) :=
  inferInstanceAs (Decidable (_ ∧ _))

/-- Removes the zero limbs at the top, possibly all limbs. -/
def dropTopZeros : Magnitude → Magnitude
  | [] => []
  | limb :: rest =>
    match dropTopZeros rest with
    | [] => if limb = 0 then [] else [limb]
    | top => limb :: top

def normalize (limbs : Magnitude) : Magnitude :=
  match dropTopZeros limbs with
  | [] => [0]
  | top => top

def isZero (limbs : Magnitude) : Bool :=
  limbs.all (· == 0)

/-- Compares limb lists of equal length from the top down. -/
def compareLimbs : Magnitude → Magnitude → Ordering
  | x :: xs, y :: ys => (compareLimbs xs ys).then (compare x y)
  | [], [] => .eq
  | [], _ :: _ => .lt
  | _ :: _, [] => .gt

/-- Compares canonical magnitudes by length first, then from the top limb down. -/
def compare (a b : Magnitude) : Ordering :=
  (Ord.compare a.length b.length).then (compareLimbs a b)

/-! ## Sums and differences -/

/-- Adds two magnitudes and a carry; a last carry becomes a limb of its own. -/
def addWith : Magnitude → Magnitude → UInt64 → Magnitude
  | [], [], carry => if carry = 0 then [] else [carry.toUInt32]
  | x :: xs, [], carry =>
    let sum := x.toUInt64 + carry
    sum.toUInt32 :: addWith xs [] (sum >>> 32)
  | [], y :: ys, carry =>
    let sum := y.toUInt64 + carry
    sum.toUInt32 :: addWith [] ys (sum >>> 32)
  | x :: xs, y :: ys, carry =>
    let sum := x.toUInt64 + y.toUInt64 + carry
    sum.toUInt32 :: addWith xs ys (sum >>> 32)

def add (a b : Magnitude) : Magnitude :=
  addWith a b 0

/-- Subtracts a magnitude and a borrow from a magnitude that is at least as large. The difference of
two limbs wraps at 64 bits, so its top bit is the next borrow. -/
def subWith : Magnitude → Magnitude → UInt64 → Magnitude
  | [], _, _ => []
  | x :: xs, [], borrow =>
    let difference := x.toUInt64 - borrow
    difference.toUInt32 :: subWith xs [] (difference >>> 63)
  | x :: xs, y :: ys, borrow =>
    let difference := x.toUInt64 - y.toUInt64 - borrow
    difference.toUInt32 :: subWith xs ys (difference >>> 63)

/-- The difference of two magnitudes, the first at least as large as the second. -/
def sub (a b : Magnitude) : Magnitude :=
  normalize (subWith a b 0)

/-- The next magnitude: the carry stops at the first limb that does not overflow. -/
def inc : Magnitude → Magnitude
  | [] => [1]
  | limb :: rest => if limb + 1 = 0 then 0 :: inc rest else (limb + 1) :: rest

/-- Borrows one from the limbs, up to the first limb that is not zero. -/
def borrowOne : Magnitude → Magnitude
  | [] => []
  | limb :: rest => if limb = 0 then (0 - 1) :: borrowOne rest else (limb - 1) :: rest

def dec (limbs : Magnitude) : Magnitude :=
  normalize (borrowOne limbs)

/-! ## Products -/

def addCarry : Magnitude → UInt64 → Magnitude
  | [], _ => []
  | limb :: rest, carry =>
    if carry = 0 then limb :: rest
    else
      let sum := limb.toUInt64 + carry
      sum.toUInt32 :: addCarry rest (sum >>> 32)

/-- Adds `factor * b` and a carry into the limbs of an accumulator. -/
def addRow : Magnitude → Magnitude → UInt32 → UInt64 → Magnitude
  | accumulator, [], _, carry => addCarry accumulator carry
  | [], _ :: _, _, _ => []
  | limb :: rest, y :: ys, factor, carry =>
    let sum := limb.toUInt64 + factor.toUInt64 * y.toUInt64 + carry
    sum.toUInt32 :: addRow rest ys factor (sum >>> 32)

/-- Adds `a * b` into an accumulator, one row for each limb of `a`. After its row a limb of the
accumulator is final, and the next row starts one limb higher. -/
def mulInto : Magnitude → Magnitude → Magnitude → Magnitude
  | [], _, accumulator => accumulator
  | x :: xs, b, accumulator =>
    match addRow accumulator b x 0 with
    | [] => []
    | low :: rest => low :: mulInto xs b rest

def mul (a b : Magnitude) : Magnitude :=
  normalize (mulInto a b (List.replicate (a.length + b.length) 0))

/-- Multiplies by a limb and adds a carry; a last carry becomes a limb of its own. -/
def scaleWith : Magnitude → UInt32 → UInt64 → Magnitude
  | [], _, carry => if carry = 0 then [] else [carry.toUInt32]
  | limb :: rest, factor, carry =>
    let product := limb.toUInt64 * factor.toUInt64 + carry
    product.toUInt32 :: scaleWith rest factor (product >>> 32)

def scaleAdd (limbs : Magnitude) (factor addend : UInt32) : Magnitude :=
  normalize (scaleWith limbs factor addend.toUInt64)

/-! ## Quotients -/

/-- Divides by a limb from the top down, giving the quotient limbs and the remainder. -/
def divSmallWith (divisor : UInt32) : Magnitude → Magnitude × UInt64
  | [] => ([], 0)
  | limb :: rest =>
    let (quotient, remainder) := divSmallWith divisor rest
    let current := (remainder <<< 32) ||| limb.toUInt64
    ((current / divisor.toUInt64).toUInt32 :: quotient, current % divisor.toUInt64)

/-- The quotient and the remainder of a division by a limb that is not zero. -/
def divSmall (limbs : Magnitude) (divisor : UInt32) : Magnitude × UInt32 :=
  let (quotient, remainder) := divSmallWith divisor limbs
  (normalize quotient, remainder.toUInt32)

def shiftIn : Magnitude → UInt32 → Magnitude
  | [], bit => if bit = 0 then [] else [bit]
  | limb :: rest, bit => ((limb <<< 1) ||| bit) :: shiftIn rest (limb >>> 31)

/-- Brings the lowest `count` bits of a dividend limb into the remainder, highest first, with one
conditional subtraction for each; the quotient bits are shifted into `digit`. -/
def divideLimb (divisor : Magnitude) (limb : UInt32) : Nat → UInt32 → Magnitude → UInt32 × Magnitude
  | 0, digit, remainder => (digit, remainder)
  | count + 1, digit, remainder =>
    let candidate := shiftIn remainder ((limb >>> UInt32.ofNat count) &&& 1)
    match compare candidate divisor with
    | .lt => divideLimb divisor limb count (digit <<< 1) candidate
    | _ => divideLimb divisor limb count ((digit <<< 1) ||| 1) (sub candidate divisor)

/-- Long division by a magnitude, one dividend limb after the other from the top down. -/
def longDivide (divisor : Magnitude) : Magnitude → Magnitude × Magnitude
  | [] => ([], [0])
  | limb :: rest =>
    let (quotient, remainder) := longDivide divisor rest
    let (digit, remainder) := divideLimb divisor limb 32 0 remainder
    (digit :: quotient, remainder)

/-- The quotient and the remainder of a division by a magnitude that is not zero. -/
def divRem (a b : Magnitude) : Magnitude × Magnitude :=
  match compare a b, b with
  | .lt, _ => ([0], a)
  | _, [divisor] =>
    let (quotient, remainder) := divSmall a divisor
    (quotient, [remainder])
  | _, _ =>
    let (quotient, remainder) := longDivide b a
    (normalize quotient, remainder)

/-! ## Shifts -/

/-- Shifts left by fewer than 32 bits but at least one, filling with the given low bits. -/
def shiftLeftBits (count : UInt32) : Magnitude → UInt32 → Magnitude
  | [], low => if low = 0 then [] else [low]
  | limb :: rest, low =>
    ((limb <<< count) ||| low) :: shiftLeftBits count rest (limb >>> (32 - count))

def shiftLeft (limbs : Magnitude) (count : UInt32) : Magnitude :=
  if isZero limbs then limbs
  else
    let bits := count % 32
    let shifted := if bits = 0 then limbs else shiftLeftBits bits limbs 0
    normalize (List.replicate (count / 32).toNat 0 ++ shifted)

/-- Shifts right by fewer than 32 bits but at least one. -/
def shiftRightBits (count : UInt32) : Magnitude → Magnitude
  | [] => []
  | limb :: rest =>
    ((limb >>> count) ||| (rest.headD 0 <<< (32 - count))) :: shiftRightBits count rest

def shiftRight (limbs : Magnitude) (count : UInt32) : Magnitude :=
  let kept := limbs.drop (count / 32).toNat
  let bits := count % 32
  normalize (if bits = 0 then kept else shiftRightBits bits kept)

end Magnitude

end RegisterMachine
