import RegisterMachine.Program.Basic

/-!
# Verification

A static check of a program, instruction by instruction: opcodes exist, registers are in range, and
immediates name places, constants, functions and argument slots that exist.
-/

namespace RegisterMachine

/-- Why a program does not verify. -/
inductive VerifyError where
  | invalidOpcode (opcode : UInt8) (pc : Nat)
  | invalidRegister (register : UInt8) (pc : Nat)
  | invalidJumpTarget (target pc : Nat)
  | invalidConstantRef (index pc : Nat)
  | invalidFieldName (index pc : Nat)
  | invalidFunctionRef (index pc : Nat)
  | argumentIndexOutOfRange (index pc : Nat)
  | moduleValidation (defect : Program.Defect)
  deriving DecidableEq, Repr

def VerifyError.message : VerifyError → String
  | .invalidOpcode opcode pc => "Invalid opcode 0x" ++ Text.hex opcode.toNat ++ s!" at pc {pc}"
  | .invalidRegister register pc => s!"Invalid register r{register} at pc {pc}"
  | .invalidJumpTarget target pc => s!"Invalid jump target {target} at pc {pc}"
  | .invalidConstantRef index pc => s!"Invalid constant reference {index} at pc {pc}"
  | .invalidFieldName index pc =>
    s!"Constant {index} used as field name at pc {pc} is not a string"
  | .invalidFunctionRef index pc => s!"Invalid function reference {index} at pc {pc}"
  | .argumentIndexOutOfRange index pc =>
    s!"Argument index {index} exceeds {maxArguments} slots at pc {pc}"
  | .moduleValidation defect => "Module validation error: " ++ defect.message

namespace Program

def verifyImmediate (program : Program) (pc : Nat) (op : Opcode) (immediate : Nat) :
    Except VerifyError Unit :=
  match op with
  | .loadConst =>
    if (program.constants.get? immediate).isSome then .ok ()
    else .error (.invalidConstantRef immediate pc)
  | .loadField | .storeField =>
    match program.constants.get? immediate with
    | none => .error (.invalidConstantRef immediate pc)
    | some (.str _) => .ok ()
    | some _ => .error (.invalidFieldName immediate pc)
  | .declareFunction =>
    if immediate < program.functions.size then .ok ()
    else .error (.invalidFunctionRef immediate pc)
  | .reserveArgs =>
    if immediate ≤ maxArguments then .ok () else .error (.argumentIndexOutOfRange immediate pc)
  | .setArg =>
    if immediate < maxArguments then .ok () else .error (.argumentIndexOutOfRange immediate pc)
  | _ => .ok ()

/-- Checks an instruction: opcode, registers, place, and whatever else the immediate names. -/
def verifyInstruction (program : Program) (pc : Nat) (ins : Instruction) :
    Except VerifyError Unit :=
  match ins.opcode? with
  | none => .error (.invalidOpcode ins.code pc)
  | some op =>
    match ins.operands.registers.find? fun register => register.toNat ≥ registerCount with
    | some register => .error (.invalidRegister register pc)
    | none =>
      let immediate := ins.operands.immediate.toNat
      if op.hasTargetImmediate ∧ immediate > program.size then
        .error (.invalidJumpTarget immediate pc)
      else program.verifyImmediate pc op immediate

/-- Checks a program and all of its instructions, in order. -/
def verify (program : Program) : Except VerifyError Unit :=
  match program.defect? with
  | some defect => .error (.moduleValidation defect)
  | none =>
    program.code.toList.zipIdx.forM fun entry =>
      program.verifyInstruction entry.2 (Instruction.decode entry.1)

end Program

end RegisterMachine
