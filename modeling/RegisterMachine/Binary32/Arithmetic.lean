import RegisterMachine.Binary32.Basic

/-!
# Single-precision arithmetic

Each operation computes the exact result and rounds it once. Elementary functions are evaluated in
double precision and rounded to single precision, whose 24 bits the double result determines.
-/

namespace RegisterMachine.Binary32

/-! ## Exact operations -/

def signed (negative : Bool) (n : Nat) : Int :=
  if negative then -(n : Int) else n

def add (x y : Binary32) : Binary32 :=
  match x.read, y.read with
  | .nan, _ => nan
  | _, .nan => nan
  | .infinite s, .infinite t => if s = t then infinity s else nan
  | .infinite s, _ => infinity s
  | _, .infinite t => infinity t
  | .finite s m e, .finite t n f =>
    let low := min e f
    let sum := signed s (m * 2 ^ (e - low).toNat) + signed t (n * 2 ^ (f - low).toNat)
    if sum = 0 then zero (s && t) else ofScaled (sum < 0) sum.natAbs low

def sub (x y : Binary32) : Binary32 :=
  x.add y.neg

def mul (x y : Binary32) : Binary32 :=
  match x.read, y.read with
  | .nan, _ => nan
  | _, .nan => nan
  | .infinite s, .infinite t => infinity (s != t)
  | .infinite s, .finite t n _ => if n = 0 then nan else infinity (s != t)
  | .finite s m _, .infinite t => if m = 0 then nan else infinity (s != t)
  | .finite s m e, .finite t n f => ofScaled (s != t) (m * n) (e + f)

def div (x y : Binary32) : Binary32 :=
  match x.read, y.read with
  | .nan, _ => nan
  | _, .nan => nan
  | .infinite _, .infinite _ => nan
  | .infinite s, .finite t _ _ => infinity (s != t)
  | .finite s _ _, .infinite t => zero (s != t)
  | .finite s m e, .finite t n f =>
    if n = 0 then (if m = 0 then nan else infinity (s != t))
    else ofRatio (s != t) (m * 2 ^ (e - f).toNat) (n * 2 ^ (f - e).toNat)

/-- The largest root below `2 ^ bits` added to `root` whose square does not exceed `n`. -/
def squareRoot (n : Nat) : Nat → Nat → Nat
  | 0, root => root
  | bits + 1, root =>
    let candidate := root + 2 ^ bits
    squareRoot n bits (if candidate * candidate ≤ n then candidate else root)

/-- The square root. An inexact integer root is widened by half a unit, which lies on the same side
of every rounding boundary as the true root. -/
def sqrt (x : Binary32) : Binary32 :=
  match x.read with
  | .nan => nan
  | .infinite s => if s then nan else x
  | .finite s m e =>
    if m = 0 then x
    else if s then nan
    else
      let (m, e) := if e % 2 = 0 then (m, e) else (2 * m, e - 1)
      let square := m * 2 ^ 60
      let root := squareRoot square 43 0
      let widened := if root * root = square then 2 * root else 2 * root + 1
      ofScaled false widened ((e - 60) / 2 - 1)

/-! ## Conversions -/

def ofInt32 (i : Int32) : Binary32 :=
  ofRatio (i < 0) i.toInt.natAbs 1

/-- The integer part, cut off at the ends of the range; not-a-number gives zero. -/
def toInt32 (x : Binary32) : Int32 :=
  match x.read with
  | .nan => 0
  | .infinite s => if s then Int32.minValue else Int32.maxValue
  | .finite s m e =>
    let whole := signed s (m * 2 ^ e.toNat / 2 ^ (-e).toNat)
    Int32.ofInt (max (-(2 ^ 31)) (min (2 ^ 31 - 1) whole))

/-! ## Elementary functions -/

def toDouble (x : Binary32) : Float :=
  (Float32.ofBits x.bits).toFloat

def ofDouble (x : Float) : Binary32 :=
  if x.isNaN then nan else ⟨x.toFloat32.toBits⟩

def exp (x : Binary32) : Binary32 := ofDouble x.toDouble.exp

def log2 (x : Binary32) : Binary32 := ofDouble x.toDouble.log2

def log10 (x : Binary32) : Binary32 := ofDouble x.toDouble.log10

def ln (x : Binary32) : Binary32 := ofDouble x.toDouble.log

def sin (x : Binary32) : Binary32 := ofDouble x.toDouble.sin

def cos (x : Binary32) : Binary32 := ofDouble x.toDouble.cos

def tan (x : Binary32) : Binary32 := ofDouble x.toDouble.tan

def asin (x : Binary32) : Binary32 := ofDouble x.toDouble.asin

def acos (x : Binary32) : Binary32 := ofDouble x.toDouble.acos

def atan (x : Binary32) : Binary32 := ofDouble x.toDouble.atan

/-- The angle of the point with the given ordinate and abscissa. -/
def atan2 (y x : Binary32) : Binary32 := ofDouble (Float.atan2 y.toDouble x.toDouble)

def pow (x y : Binary32) : Binary32 := ofDouble (Float.pow x.toDouble y.toDouble)

end RegisterMachine.Binary32
