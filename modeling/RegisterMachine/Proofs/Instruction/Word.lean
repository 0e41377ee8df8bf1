import Mathlib.Logic.Basic
import RegisterMachine.Instruction.Word

/-!
# Words and their fields

The opcode byte and the operands of an instruction take disjoint bits of its word, so they are read
back from it. The other way round a word loses the bits that its layout does not use, and only
these. Bytes and mnemonics name at most one opcode.
-/

namespace RegisterMachine

namespace Shape

/-- The bits of a word that an opcode byte and operands in a layout take. -/
def usedBits : Shape → UInt32
  | .none => 0xff000000
  | .oneReg => 0xffff0000
  | .twoReg => 0xffffff00
  | .imm => 0xff00ffff
  | .threeReg | .immReg => 0xffffffff

end Shape

/-! ## Opcodes -/

namespace Opcode

theorem ofByte?_byte (op : Opcode) : ofByte? op.byte = some op := by
  cases op with
  | jumpIf x | jumpIfZero x | jumpIfZeroIndirect x => cases x <;> decide +kernel
  | boolBinary x | intBinary x | floatBinary x | floatUnary x => cases x <;> decide +kernel
  | _ => decide +kernel

theorem mem_all (op : Opcode) : op ∈ all :=
  List.mem_of_find?_eq_some op.ofByte?_byte

theorem byte_of_ofByte? {byte : UInt8} {op : Opcode} (h : ofByte? byte = some op) :
    op.byte = byte := by
  simpa using List.find?_some h

theorem ofName?_name (op : Opcode) : ofName? op.name = some op := by
  have h : ∀ op ∈ all, ofName? op.name = some op := by decide +kernel
  exact h op op.mem_all

theorem name_of_ofName? {name : String} {op : Opcode} (h : ofName? name = some op) :
    op.name = name := by
  simpa using List.find?_some h

theorem ofName?_eq_some_iff {name : String} {op : Opcode} :
    ofName? name = some op ↔ op.name = name :=
  ⟨name_of_ofName?, fun h => h ▸ ofName?_name op⟩

/-- The characters of mnemonics. -/
def isMnemonicChar (c : Char) : Bool :=
  c.isUpper || c.isDigit || c == '_'

/-- A mnemonic is a word of mnemonic characters. -/
theorem exists_spelling (op : Opcode) : ∃ letters : List Char,
    op.name = String.ofList letters ∧ letters ≠ [] ∧ ∀ c ∈ letters, isMnemonicChar c = true := by
  cases op with
  | jumpIf x | jumpIfZero x | jumpIfZeroIndirect x =>
    cases x <;> exact ⟨_, rfl, by decide, List.all_eq_true.1 (by decide)⟩
  | boolBinary x | intBinary x | floatBinary x | floatUnary x =>
    cases x <;> exact ⟨_, rfl, by decide, List.all_eq_true.1 (by decide)⟩
  | _ => exact ⟨_, rfl, by decide, List.all_eq_true.1 (by decide)⟩

theorem shapeOfByte_byte (op : Opcode) : shapeOfByte op.byte = op.shape := by
  rw [shapeOfByte, ofByte?_byte]

end Opcode

/-! ## Fields -/

/-- Eight bits of a word, given bit by bit. -/
theorem toUInt8_eq_of_bits {x : UInt32} {y : UInt8}
    (h : ∀ i < 8, x.toBitVec.getLsbD i = y.toBitVec.getLsbD i) : x.toUInt8 = y := by
  apply UInt8.toBitVec_inj.1
  apply BitVec.eq_of_getLsbD_eq
  intro i hi
  rw [UInt32.toBitVec_toUInt8, BitVec.getLsbD_setWidth, h i hi]
  simp [hi]

/-- Sixteen bits of a word, given bit by bit. -/
theorem toUInt16_eq_of_bits {x : UInt32} {y : UInt16}
    (h : ∀ i < 16, x.toBitVec.getLsbD i = y.toBitVec.getLsbD i) : x.toUInt16 = y := by
  apply UInt16.toBitVec_inj.1
  apply BitVec.eq_of_getLsbD_eq
  intro i hi
  rw [UInt32.toBitVec_toUInt16, BitVec.getLsbD_setWidth, h i hi]
  simp [hi]

/-- A field that is cut out of a word and put back in its place is the word under a mask. -/
theorem field_in_place (word : BitVec 32) (place width : Nat) :
    ((word >>> place).setWidth width).setWidth 32 <<< place =
      word &&& (BitVec.allOnes width).setWidth 32 <<< place := by
  apply BitVec.eq_of_getLsbD_eq
  intro i hi
  simp only [BitVec.getLsbD_and, BitVec.getLsbD_shiftLeft, BitVec.getLsbD_setWidth,
    BitVec.getLsbD_ushiftRight, BitVec.getLsbD_allOnes]
  grind

/-- Bits under either of two masks. -/
theorem and_or_and (word a b : UInt32) : (word &&& a) ||| (word &&& b) = word &&& (a ||| b) := by
  apply UInt32.toBitVec_inj.1
  apply BitVec.eq_of_getLsbD_eq
  intro i hi
  simp [Bool.and_or_distrib_left]

namespace Operands

theorem shape_ofWord (word : UInt32) (shape : Shape) : (ofWord word shape).shape = shape := by
  cases shape <;> rfl

end Operands

namespace Instruction

/-- The operands take no bit of the opcode byte. -/
theorem code_decode_encode (ins : Instruction) : (decode ins.encode).code = ins.code := by
  rcases ins with ⟨code, operands⟩
  apply toUInt8_eq_of_bits
  intro i hi
  cases operands <;> simp [encode, Operands.fields] <;> grind

/-- Operands are read back in their own layout. -/
theorem ofWord_encode (code : UInt8) (operands : Operands) :
    Operands.ofWord (encode ⟨code, operands⟩) operands.shape = operands := by
  cases operands <;>
    simp only [Operands.ofWord, Operands.shape, Operands.regs1.injEq, Operands.regs2.injEq,
      Operands.regs3.injEq, Operands.imm.injEq, Operands.immReg.injEq, encode, Operands.fields]
  case regs1 a => exact toUInt8_eq_of_bits fun i hi => by simp; grind
  case regs2 a b =>
    exact ⟨toUInt8_eq_of_bits fun i hi => by simp; grind,
      toUInt8_eq_of_bits fun i hi => by simp; grind⟩
  case regs3 a b c =>
    exact ⟨toUInt8_eq_of_bits fun i hi => by simp; grind,
      toUInt8_eq_of_bits fun i hi => by simp; grind,
      toUInt8_eq_of_bits fun i hi => by simp; grind⟩
  case imm value => exact toUInt16_eq_of_bits fun i hi => by simp; grind
  case immReg a value =>
    exact ⟨toUInt8_eq_of_bits fun i hi => by simp; grind,
      toUInt16_eq_of_bits fun i hi => by simp; grind⟩

/-- An instruction laid out as its opcode demands is read back. -/
theorem decode_encode {ins : Instruction} (h : ins.operands.shape = Opcode.shapeOfByte ins.code) :
    decode ins.encode = ins := by
  have hcode := code_decode_encode ins
  rw [← hcode] at h
  rcases ins with ⟨code, operands⟩
  exact congrArg₂ Instruction.mk hcode (h ▸ ofWord_encode code operands)

/-- Reading a word and writing it again clears the bits that its layout does not use. -/
theorem encode_decode (word : UInt32) :
    (decode word).encode = word &&& (decode word).operands.shape.usedBits := by
  have top : (word >>> 24).toUInt8.toUInt32 <<< 24 = word &&& 0xff000000 :=
    UInt32.toBitVec_inj.1 (field_in_place word.toBitVec 24 8)
  have first : (word >>> 16).toUInt8.toUInt32 <<< 16 = word &&& 0xff0000 :=
    UInt32.toBitVec_inj.1 (field_in_place word.toBitVec 16 8)
  have second : (word >>> 8).toUInt8.toUInt32 <<< 8 = word &&& 0xff00 :=
    UInt32.toBitVec_inj.1 (field_in_place word.toBitVec 8 8)
  have third : word.toUInt8.toUInt32 = word &&& 0xff := by
    have h := field_in_place word.toBitVec 0 8
    rw [BitVec.shiftLeft_zero, BitVec.ushiftRight_zero] at h
    exact UInt32.toBitVec_inj.1 h
  have low : word.toUInt16.toUInt32 = word &&& 0xffff := by
    have h := field_in_place word.toBitVec 0 16
    rw [BitVec.shiftLeft_zero, BitVec.ushiftRight_zero] at h
    exact UInt32.toBitVec_inj.1 h
  simp only [decode, encode, Operands.shape_ofWord]
  cases Opcode.shapeOfByte (word >>> 24).toUInt8 <;>
    simp only [Operands.ofWord, Operands.fields, Shape.usedBits, top, first, second, third, low,
      UInt32.or_zero, and_or_and] <;>
    rfl

/-! ## Immediates -/

theorem toNat_ofInt (k : Int) : ((UInt16.ofInt k).toNat : Int) = k % 2 ^ 16 := by
  rw [UInt16.ofInt, UInt16.toNat_ofNat']
  omega

theorem ofInt_toNat (value : UInt16) : UInt16.ofInt value.toNat = value := by
  have hlt := value.toNat_lt
  apply UInt16.toNat_inj.1
  have h := toNat_ofInt value.toNat
  omega

/-- The field of an immediate keeps its residue, and its signed reading picks the representative
with the sign. -/
theorem ofInt_signedImmediate (value : UInt16) : UInt16.ofInt (signedImmediate value) = value := by
  have hlt := value.toNat_lt
  apply UInt16.toNat_inj.1
  have h := toNat_ofInt (signedImmediate value)
  unfold signedImmediate at h ⊢
  split at h <;> split <;> omega

theorem signedImmediate_bounds (value : UInt16) :
    -(2 ^ 15) ≤ signedImmediate value ∧ signedImmediate value < 2 ^ 15 := by
  have hlt := value.toNat_lt
  unfold signedImmediate
  split <;> omega

end Instruction

end RegisterMachine
