import RegisterMachine.Bignum.Arithmetic
import RegisterMachine.Text.Blank
import RegisterMachine.Text.Digits
import RegisterMachine.Text.Layout

/-!
# Numerals of bignums

Decimal text goes through chunks of nine digits, the largest power of ten that fits a limb. A
numeral read may have white space around it, one sign, and underscores after its first digit.
-/

namespace RegisterMachine

namespace Magnitude

def chunkBase : UInt64 := 1000000000

/-- A carry as chunks, none for zero. A carry below 2³² needs at most two. -/
def carryChunks (carry : UInt64) : List UInt64 :=
  if carry = 0 then []
  else if carry < chunkBase then [carry]
  else [carry % chunkBase, carry / chunkBase]

/-- Multiplies chunks, least significant first, by 2³² and adds a carry. -/
def chunksTimesLimb : List UInt64 → UInt64 → List UInt64
  | [], carry => carryChunks carry
  | chunk :: rest, carry =>
    let product := (chunk <<< 32) + carry
    product % chunkBase :: chunksTimesLimb rest (product / chunkBase)

/-- The chunks of a magnitude, least significant first; none for zero. -/
def toChunks : Magnitude → List UInt64
  | [] => []
  | limb :: rest => chunksTimesLimb (toChunks rest) limb.toUInt64

/-- The decimal numeral of chunks with the most significant first: all but the top one have nine
digits. -/
def chunksText : List UInt64 → String
  | [] => "0"
  | top :: rest =>
    rest.foldl (fun text chunk => text ++ Text.zeroFill 9 (toString chunk.toNat))
      (toString top.toNat)

def decimal (limbs : Magnitude) : String :=
  chunksText (toChunks limbs).reverse

/-- The hexadecimal numeral of limbs with the most significant first: all but the top one have
eight digits. -/
def limbsText : List UInt32 → String
  | [] => ""
  | top :: rest =>
    rest.foldl (fun text limb => text ++ Text.zeroFill 8 (Text.hex limb.toNat))
      (Text.hex top.toNat)

def hexadecimal (limbs : Magnitude) : String :=
  limbsText limbs.reverse

/-- Reads decimal digits and underscores, gathering nine digits before each multiplication:
`chunk` is the value of the `count` digits gathered so far. -/
def readDigits (limbs : Magnitude) (chunk : UInt32) (count : Nat) : List Char → Option Magnitude
  | [] =>
    some (if count = 0 then limbs else scaleAdd limbs (UInt32.ofNat (10 ^ count)) chunk)
  | c :: rest =>
    if c = '_' then readDigits limbs chunk count rest
    else
      match Text.decimalDigit? c with
      | none => none
      | some digit =>
        let chunk := chunk * 10 + UInt32.ofNat digit
        if count + 1 = 9 then readDigits (scaleAdd limbs chunkBase.toUInt32 chunk) 0 0 rest
        else readDigits limbs chunk (count + 1) rest

end Magnitude

namespace Bignum

def decimal (n : Bignum) (layout : Text.Layout) : String :=
  layout.apply n.isNegative "" n.limbs.decimal

/-- The hexadecimal numeral of the absolute value, with the sign in front, in a layout. -/
def hexadecimal (n : Bignum) (layout : Text.Layout) : String :=
  layout.apply n.isNegative "0x" n.limbs.hexadecimal

def toText (n : Bignum) : String :=
  n.decimal {}

instance : ToString Bignum :=
  ⟨toText⟩

/-- Reads the digits that follow the sign. The first of them is no underscore. -/
def parseBody (negative : Bool) : List Char → Option Bignum
  | [] => none
  | '_' :: _ => none
  | body => (Magnitude.readDigits [0] 0 0 body).map fun limbs => clearZeroSign ⟨limbs, negative⟩

/-- Reads a decimal numeral: an optional sign, then digits and underscores. -/
def parse (text : String) : Except BignumError Bignum :=
  let read :=
    match Text.trim text.toList with
    | '-' :: body => parseBody true body
    | '+' :: body => parseBody false body
    | body => parseBody false body
  match read with
  | some n => .ok n
  | none => .error (.parse text)

end Bignum

end RegisterMachine
