import RegisterMachine.Binary32.Basic
import RegisterMachine.Text.Digits

/-!
# Decimal text of single-precision numbers

A number is written with the fewest digits that read back to it, always positionally and never with
an exponent. Of the decimals that read back on the coarsest grid that has any, the nearer neighbour
is taken, on a tie the larger. Reading rounds the exact decimal once.
-/

namespace RegisterMachine.Binary32

/-! ## Writing -/

/-- The decimals `digits * 10 ^ exponent` next to `mantissa * 2 ^ scale` on the grid of an exponent,
if one of them reads back. Everything is measured in quarters of the last bit: the numbers that
round here reach two quarters up and two down, one down from a power of two, and the ends belong to
them if the mantissa is even. -/
def neighbour? (mantissa : Nat) (scale exponent : Int) : Option Nat :=
  let num := 2 ^ (scale - 2).toNat * 10 ^ (-exponent).toNat
  let den := 2 ^ (2 - scale).toNat * 10 ^ exponent.toNat
  let center := 4 * mantissa * num
  let top := (4 * mantissa + 2) * num
  let bottom := (4 * mantissa - if mantissa = 2 ^ 23 then 1 else 2) * num
  let below := center / den
  let above := below + 1
  let even := mantissa % 2 = 0
  let belowFits := bottom < below * den || (even && bottom == below * den)
  let aboveFits := above * den < top || (even && above * den == top)
  match belowFits, aboveFits with
  | true, true => some (if center - below * den < above * den - center then below else above)
  | true, false => some below
  | false, true => some above
  | false, false => none

/-- The shortest decimal of a finite number, from the grid of an exponent down through finer ones.
-/
def shortest (mantissa : Nat) (scale : Int) : Nat → Int → Nat × Int
  | 0, exponent => (0, exponent)
  | fuel + 1, exponent =>
    match neighbour? mantissa scale exponent with
    | some digits => (digits, exponent)
    | none => shortest mantissa scale fuel (exponent - 1)

def zeros (count : Nat) : String :=
  String.ofList (List.replicate count '0')

def positional (digits : Nat) (exponent : Int) : String :=
  let text := toString digits
  let places := (-exponent).toNat
  if places = 0 then text ++ zeros exponent.toNat
  else
    let text := Text.zeroFill (places + 1) text
    let whole := text.toList.take (text.length - places)
    let fraction := text.toList.drop (text.length - places)
    String.ofList whole ++ "." ++ String.ofList fraction

/-- The text of a number. No finite number needs a grid coarser than `10 ^ 39` or finer than
`10 ^ (-60)`. -/
def toText (x : Binary32) : String :=
  match x.read with
  | .nan => "NaN"
  | .infinite negative => if negative then "-inf" else "inf"
  | .finite negative mantissa scale =>
    let sign := if negative then "-" else ""
    if mantissa = 0 then sign ++ "0"
    else
      let (digits, exponent) := shortest mantissa scale 100 39
      sign ++ positional digits exponent

instance : ToString Binary32 :=
  ⟨toText⟩

/-! ## Reading -/

/-- The value of decimal digits, most significant first. -/
def digitsValue (digits : List Char) : Nat :=
  digits.foldl (fun value c => value * 10 + (c.toNat - '0'.toNat)) 0

/-- The value of an exponent. From 65536 on further digits do not change it: no number is so large
or so small. -/
def exponentValue (digits : List Char) : Nat :=
  let next (value : Nat) (c : Char) : Nat :=
    if value < 65536 then value * 10 + (c.toNat - '0'.toNat) else value
  digits.foldl next 0

/-- Reads what follows the mantissa: nothing, or a mark and a signed exponent. -/
def parseExponent : List Char → Option Int
  | [] => some 0
  | mark :: rest =>
    if mark = 'e' ∨ mark = 'E' then
      let (negative, digits) :=
        match rest with
        | '-' :: digits => (true, digits)
        | '+' :: digits => (false, digits)
        | digits => (false, digits)
      if !digits.isEmpty && digits.all Char.isDigit then
        some (if negative then -(exponentValue digits : Int) else exponentValue digits)
      else none
    else none

/-- The number nearest to `0.digits * 10 ^ point`, where the first digit is not zero. Beyond the
range of the format the answer does not depend on the digits. -/
def ofDigits (negative : Bool) (digits : List Char) (point : Int) : Binary32 :=
  if digits.isEmpty || point < -60 then zero negative
  else if point > 60 then infinity negative
  else
    let exponent := point - digits.length
    ofRatio negative (digitsValue digits * 10 ^ exponent.toNat) (10 ^ (-exponent).toNat)

/-- Reads an unsigned decimal: digits with at most one point and at least one digit, and an optional
exponent. -/
def parseDecimal (negative : Bool) (text : List Char) : Option Binary32 := do
  let whole := text.takeWhile Char.isDigit
  let rest := text.dropWhile Char.isDigit
  let (fraction, rest) :=
    match rest with
    | '.' :: rest => (rest.takeWhile Char.isDigit, rest.dropWhile Char.isDigit)
    | rest => ([], rest)
  let digits := whole ++ fraction
  if digits.isEmpty then none
  else
    let exponent ← parseExponent rest
    let significant := digits.dropWhile (· == '0')
    let leading : Int := (digits.length : Int) - significant.length
    some (ofDigits negative significant (exponent + whole.length - leading))

/-- Reads an unsigned number: a decimal, or the name of an infinity or of not-a-number in any case.
-/
def parseUnsigned (negative : Bool) (text : List Char) : Option Binary32 :=
  let name := String.ofList (text.map Char.toLower)
  if name = "inf" ∨ name = "infinity" then some (infinity negative)
  else if name = "nan" then some (if negative then nan.neg else nan)
  else parseDecimal negative text

def parse? (text : List Char) : Option Binary32 :=
  match text with
  | '-' :: rest => parseUnsigned true rest
  | '+' :: rest => parseUnsigned false rest
  | rest => parseUnsigned false rest

end RegisterMachine.Binary32
