/-!
# Digits

Numerals of natural numbers in a base, fixed widths, and the reading of single digits.
-/

namespace RegisterMachine.Text

/-- The lower-case hexadecimal numeral of a number, without leading zeros. -/
def hex (n : Nat) : String :=
  String.ofList (Nat.toDigits 16 n)

/-- Fills a numeral with zeros on the left up to a width; a longer numeral stays whole. -/
def zeroFill (width : Nat) (digits : String) : String :=
  String.ofList (List.replicate (width - digits.length) '0') ++ digits

def hexByte (byte : UInt8) : String :=
  zeroFill 2 (hex byte.toNat)

/-- The value of a decimal digit, if the character is one of the ten digits of ASCII. -/
def decimalDigit? (c : Char) : Option Nat :=
  if '0' ≤ c ∧ c ≤ '9' then some (c.toNat - '0'.toNat) else none

/-- The value of a hexadecimal digit of either case. -/
def hexDigit? (c : Char) : Option Nat :=
  if '0' ≤ c ∧ c ≤ '9' then some (c.toNat - '0'.toNat)
  else if 'a' ≤ c ∧ c ≤ 'f' then some (c.toNat - 'a'.toNat + 10)
  else if 'A' ≤ c ∧ c ≤ 'F' then some (c.toNat - 'A'.toNat + 10)
  else none

/-- Reads a text of digits in a base, most significant first; the empty text is no numeral. -/
def readNat? (base : Nat) (digit? : Char → Option Nat) : List Char → Option Nat
  | [] => none
  | first :: rest => do
    let lead ← digit? first
    rest.foldlM (fun value c => do return value * base + (← digit? c)) lead

/-- Reads an integer with an optional sign in front of its digits. -/
def readInt? (base : Nat) (digit? : Char → Option Nat) : List Char → Option Int
  | '-' :: rest => (readNat? base digit? rest).map fun value => -(value : Int)
  | '+' :: rest => (readNat? base digit? rest).map fun value => (value : Int)
  | text => (readNat? base digit? text).map fun value => (value : Int)

end RegisterMachine.Text
