import RegisterMachine.Proofs.Instruction.Word

/-!
# Round trips of instruction words

Which bits of a word a layout uses follows from its operands: the registers come from the top, right
below the opcode byte, and an immediate stands at the bottom. An instruction can be written exactly
if its operands are laid out as its opcode demands, and is then read back. Any word at all can be
read and written again, which clears the bits that the layout of its opcode byte does not use and
keeps all others. A byte without an opcode uses none but its own.
-/

namespace RegisterMachine

namespace Shape

/-- Whether a layout uses a bit of a word: for the opcode byte or a register, which fill the word
from the top, or for an immediate. -/
def uses (shape : Shape) (bit : Nat) : Bool :=
  24 - 8 * shape.registerCount ≤ bit || (shape.hasImmediate && bit < 16)

/-- The mask of a layout has the bits that it uses. -/
theorem testBit_usedBits (shape : Shape) {bit : Nat} (hbit : bit < 32) :
    shape.usedBits.toNat.testBit bit = shape.uses bit := by
  revert bit
  cases shape <;> decide

end Shape

namespace Instruction

/-- Of a word that is read and written again the used bits are left. -/
theorem testBit_encode_decode (word : UInt32) (bit : Nat) :
    (decode word).encode.toNat.testBit bit =
      (word.toNat.testBit bit && (Opcode.shapeOfByte (decode word).code).uses bit) := by
  have hshape : (decode word).operands.shape = Opcode.shapeOfByte (decode word).code :=
    Operands.shape_ofWord word _
  rw [encode_decode, UInt32.toNat_and, Nat.testBit_and, hshape]
  by_cases hbit : bit < 32
  · rw [Shape.testBit_usedBits _ hbit]
  · have hword : word.toNat < 2 ^ bit :=
      Nat.lt_of_lt_of_le word.toNat_lt (Nat.pow_le_pow_right (by decide) (Nat.le_of_not_lt hbit))
    rw [Nat.testBit_lt_two_pow hword, Bool.false_and, Bool.false_and]

/-- What was read and written again is read as before. -/
theorem decode_encode_decode (word : UInt32) : decode (decode word).encode = decode word :=
  decode_encode (Operands.shape_ofWord word _)

/-- Without an opcode there are no operands. -/
theorem operands_of_ofByte?_eq_none {word : UInt32}
    (h : Opcode.ofByte? (decode word).code = none) : (decode word).operands = .none := by
  have hshape : Opcode.shapeOfByte (decode word).code = .none := by rw [Opcode.shapeOfByte, h]
  change Operands.ofWord word (Opcode.shapeOfByte (decode word).code) = .none
  rw [hshape, Operands.ofWord]

/-- Operands in the layout of an opcode can be written, and no others. -/
theorem encode_make (op : Opcode) (operands : Operands) :
    (make op operands).map encode =
      if operands.shape = op.shape then .ok (encode ⟨op.byte, operands⟩)
      else .error (.shapeMismatch op.name op.shape operands.shape) := by
  unfold make
  split <;> rfl

/-- What is written of an opcode is read back. -/
theorem decode_of_encode_make {op : Opcode} {operands : Operands} {word : UInt32}
    (h : (make op operands).map encode = .ok word) :
    (decode word).opcode? = some op ∧ (decode word).operands = operands := by
  rw [encode_make] at h
  split at h
  · next hshape =>
    cases h
    have hread : decode (encode ⟨op.byte, operands⟩) = ⟨op.byte, operands⟩ :=
      decode_encode (by rw [hshape, Opcode.shapeOfByte_byte])
    rw [hread]
    exact ⟨op.ofByte?_byte, rfl⟩
  · cases h

/-- An opcode and operands can be written exactly if the operands are laid out as the opcode
demands, and are read back from the word. Any word, read and written again, keeps the bits that the
layout of its opcode byte uses, among them the opcode byte itself, and has all others cleared; a
byte without an opcode is read without operands. -/
theorem words_round_trip :
    (∀ op operands,
      ((∃ word, (make op operands).map encode = .ok word) ↔ operands.shape = op.shape) ∧
      (operands.shape ≠ op.shape → (make op operands).map encode =
        .error (.shapeMismatch op.name op.shape operands.shape)) ∧
      ∀ word, (make op operands).map encode = .ok word →
        (decode word).opcode? = some op ∧ (decode word).operands = operands) ∧
    ∀ word,
      (∀ bit, (decode word).encode.toNat.testBit bit =
        (word.toNat.testBit bit && (Opcode.shapeOfByte (word >>> 24).toUInt8).uses bit)) ∧
      ((decode word).encode >>> 24).toUInt8 = (word >>> 24).toUInt8 ∧
      (Opcode.ofByte? (word >>> 24).toUInt8 = none → (decode word).operands = .none) ∧
      decode (decode word).encode = decode word := by
  refine ⟨fun op operands ↦ ⟨?_, fun hshape ↦ ?_, fun word ↦ decode_of_encode_make⟩, fun word ↦ ?_⟩
  · rw [encode_make]
    split
    · next hshape => exact iff_of_true ⟨_, rfl⟩ hshape
    · next hshape => exact iff_of_false nofun hshape
  · rw [encode_make, if_neg hshape]
  · exact ⟨testBit_encode_decode word, code_decode_encode (decode word),
      operands_of_ofByte?_eq_none, decode_encode_decode word⟩

/-- `UNBOX` with registers 7 and 255, a word of it whose last byte has no meaning, a refusal, and a
byte without an opcode. -/
theorem words_round_trip_unused :
    (make .unbox (.regs2 7 255)).map encode = .ok 0xCB07FF00 ∧
      (decode 0xCB07FF00).operands = .regs2 7 255 ∧
      (decode 0xCB07FF5A).encode.toNat.testBit 6 = false ∧
      (make .unbox (.regs1 7)).map encode =
        .error (.shapeMismatch "UNBOX" .twoReg .oneReg) ∧
      (decode 0xFFABCDEF).operands = .none := by
  obtain ⟨written, words⟩ := words_round_trip
  have hword : (make .unbox (.regs2 7 255)).map encode = .ok 0xCB07FF00 := by rfl
  refine ⟨hword, ((written _ _).2.2 _ hword).2, ?_, (written _ _).2.1 (by decide), ?_⟩
  · rw [(words 0xCB07FF5A).1 6]
    decide +kernel
  · exact (words 0xFFABCDEF).2.2.1 (by decide +kernel)

end Instruction

end RegisterMachine
