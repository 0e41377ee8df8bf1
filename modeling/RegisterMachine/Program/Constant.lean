import RegisterMachine.Bignum.Numeral
import RegisterMachine.Binary32.Decimal
import RegisterMachine.Bytes.Codec

/-!
# Constants

The constants of a program stand in a pool and are named by their index. A constant that equals one
already in the pool is not added again; floats are equal as numbers, so a negative zero finds a
positive one and a not-a-number finds nothing.
-/

namespace RegisterMachine

/-- A constant of a program. -/
inductive Constant where
  | int (value : Int32)
  | float (value : Binary32)
  | str (value : String)
  | big (value : Bignum)
  | native (name : String)
  deriving DecidableEq, Repr

namespace Constant

def kind : Constant → String
  | .int _ => "int"
  | .float _ => "float"
  | .str _ => "str"
  | .big _ => "big"
  | .native _ => "native"

/-- Whether two constants count as the same entry of a pool. -/
def equals : Constant → Constant → Bool
  | .int x, .int y => x == y
  | .float x, .float y => x.numericEq y
  | .str x, .str y => x == y
  | .big x, .big y => x.equals y
  | .native x, .native y => x == y
  | _, _ => false

def text : Constant → String
  | .int value => toString value.toInt
  | .float value => value.toText
  | .str value => Text.quote value
  | .big value => value.toText
  | .native name => Text.quote name

/-- The bytes of a constant: a tag for the kind, then the value. -/
def encode : Constant → List UInt8
  | .int value => 0 :: Bytes.ofUInt32 value.toUInt32
  | .float value => 1 :: Bytes.ofUInt32 value.bits
  | .str value => 2 :: Bytes.ofString value
  | .big value => 3 :: Bytes.ofString value.toText
  | .native name => 4 :: Bytes.ofString name

def read : Bytes.Parser Constant := do
  let offset ← Bytes.position
  match ← Bytes.readUInt8 with
  | 0 => return .int (← Bytes.readInt32)
  | 1 => return .float (← Bytes.readBinary32)
  | 2 => return .str (← Bytes.readString)
  | 3 =>
    match Bignum.parse (← Bytes.readString) with
    | .ok value => return .big value
    | .error _ => throw (.invalidBignum offset)
  | 4 => return .native (← Bytes.readString)
  | tag => throw (.invalidTag tag offset)

end Constant

/-- The constants of a program by index. -/
structure ConstantPool where
  entries : Array Constant := #[]
  deriving DecidableEq, Repr

namespace ConstantPool

def size (pool : ConstantPool) : Nat :=
  pool.entries.size

/-- The index of a constant, which is added unless it equals an entry. -/
def add (pool : ConstantPool) (constant : Constant) : Nat × ConstantPool :=
  match pool.entries.findIdx? (·.equals constant) with
  | some index => (index, pool)
  | none => (pool.size, ⟨pool.entries.push constant⟩)

def get? (pool : ConstantPool) (index : Nat) : Option Constant :=
  pool.entries[index]?

def getString? (pool : ConstantPool) (index : Nat) : Option String :=
  match pool.get? index with
  | some (.str value) => some value
  | _ => none

/-- Whether two pools have equal entries in the same order. -/
def equals (a b : ConstantPool) : Bool :=
  a.size == b.size && (a.entries.toList.zip b.entries.toList).all fun pair => pair.1.equals pair.2

/-- The bytes of a pool: the number of entries, then the entries. -/
def encode (pool : ConstantPool) : List UInt8 :=
  Bytes.ofUInt32 (UInt32.ofNat pool.size) ++ pool.entries.toList.flatMap Constant.encode

def read : Bytes.Parser ConstantPool := do
  let count ← Bytes.readUInt32
  return ⟨(← Bytes.readMany Constant.read count.toNat).toArray⟩

end ConstantPool

end RegisterMachine
