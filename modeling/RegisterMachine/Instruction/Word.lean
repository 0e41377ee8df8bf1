import RegisterMachine.Instruction.Opcode
import RegisterMachine.Power
import RegisterMachine.Text.Digits

/-!
# Instruction words

An instruction word has its opcode byte on top and its operands in the 24 bits below: up to three
register bytes from the top down, or a register byte and a 16-bit immediate at the bottom. Every
word can be read; a byte without an opcode reads without operands.
-/

namespace RegisterMachine

def registerCount : Nat := 8

def maxArguments : Nat := 3

/-- Why an instruction cannot be written. -/
inductive EncodeError where
  | shapeMismatch (opcode : String) (expected actual : Shape)
  | targetOutOfRange (target : Nat)
  | unboundLabel (label : Nat)
  deriving DecidableEq, Repr

def EncodeError.message : EncodeError → String
  | .shapeMismatch opcode expected actual =>
    s!"{opcode} expects {expected.name} operands, got {actual.name}"
  | .targetOutOfRange target => s!"Jump target {target} does not fit in 16 bits"
  | .unboundLabel label => s!"Unbound label {label}"

/-- The operands of an instruction. -/
inductive Operands where
  | none
  | regs1 (a : UInt8)
  | regs2 (a b : UInt8)
  | regs3 (a b c : UInt8)
  | imm (value : UInt16)
  | immReg (a : UInt8) (value : UInt16)
  deriving DecidableEq, Repr

namespace Operands

def shape : Operands → Shape
  | .none => .none
  | .regs1 _ => .oneReg
  | .regs2 _ _ => .twoReg
  | .regs3 _ _ _ => .threeReg
  | .imm _ => .imm
  | .immReg _ _ => .immReg

def registers : Operands → List UInt8
  | .none | .imm _ => []
  | .regs1 a | .immReg a _ => [a]
  | .regs2 a b => [a, b]
  | .regs3 a b c => [a, b, c]

/-- The first register, or register zero. -/
def a : Operands → UInt8
  | .none | .imm _ => 0
  | .regs1 a | .immReg a _ | .regs2 a _ | .regs3 a _ _ => a

/-- The second register, or register zero. -/
def b : Operands → UInt8
  | .regs2 _ b | .regs3 _ b _ => b
  | _ => 0

/-- The third register, or register zero. -/
def c : Operands → UInt8
  | .regs3 _ _ c => c
  | _ => 0

/-- The immediate, or zero. -/
def immediate : Operands → UInt16
  | .imm value | .immReg _ value => value
  | _ => 0

def fields : Operands → UInt32
  | .none => 0
  | .regs1 a => a.toUInt32 <<< 16
  | .regs2 a b => (a.toUInt32 <<< 16) ||| (b.toUInt32 <<< 8)
  | .regs3 a b c => (a.toUInt32 <<< 16) ||| (b.toUInt32 <<< 8) ||| c.toUInt32
  | .imm value => value.toUInt32
  | .immReg a value => (a.toUInt32 <<< 16) ||| value.toUInt32

def ofWord (word : UInt32) : Shape → Operands
  | .none => .none
  | .oneReg => .regs1 (word >>> 16).toUInt8
  | .twoReg => .regs2 (word >>> 16).toUInt8 (word >>> 8).toUInt8
  | .threeReg => .regs3 (word >>> 16).toUInt8 (word >>> 8).toUInt8 word.toUInt8
  | .imm => .imm word.toUInt16
  | .immReg => .immReg (word >>> 16).toUInt8 word.toUInt16

end Operands

/-- An instruction: an opcode byte, which may have no opcode, and operands. -/
structure Instruction where
  code : UInt8
  operands : Operands
  deriving DecidableEq, Repr

namespace Instruction

/-- An instruction of an opcode, whose operands have to be laid out as it demands. -/
def make (op : Opcode) (operands : Operands) : Except EncodeError Instruction :=
  if operands.shape = op.shape then .ok ⟨op.byte, operands⟩
  else .error (.shapeMismatch op.name op.shape operands.shape)

def decode (word : UInt32) : Instruction :=
  let code := (word >>> 24).toUInt8
  ⟨code, Operands.ofWord word (Opcode.shapeOfByte code)⟩

def encode (ins : Instruction) : UInt32 :=
  (ins.code.toUInt32 <<< 24) ||| ins.operands.fields

def opcode? (ins : Instruction) : Option Opcode :=
  Opcode.ofByte? ins.code

def signedImmediate (value : UInt16) : Int :=
  if value.toNat < 2 ^ 15 then value.toNat else (value.toNat : Int) - 2 ^ 16

def operandsText (op : Opcode) : Operands → String
  | .none => ""
  | .regs1 a => s!" r{a}"
  | .regs2 a b => s!" r{a}, r{b}"
  | .regs3 a b c => s!" r{a}, r{b}, r{c}"
  | .imm value => s!" {value}"
  | .immReg a value =>
    if op = .loadInt then s!" r{a}, {signedImmediate value}" else s!" r{a}, {value}"

/-- A byte in messages: two hexadecimal digits after the marker of the base. -/
def byteText (byte : UInt8) : String :=
  "0x" ++ Text.hexByte byte

def text (ins : Instruction) : String :=
  match ins.opcode? with
  | none => "??? " ++ byteText ins.code
  | some op => op.name ++ operandsText op ins.operands

end Instruction

end RegisterMachine
