import RegisterMachine.Assembly.Line
import RegisterMachine.Program.Basic

/-!
# Assembling

Lines are gathered in order, giving names to constants, functions and places in the code. When all
names are known the entries of the functions are resolved, then the instructions.
-/

namespace RegisterMachine.Assembly

/-- An instruction whose names are not resolved. -/
structure PendingInstruction where
  line : Nat
  op : Opcode
  operands : List String
  deriving DecidableEq, Repr

/-- A function whose entry is not resolved. -/
structure PendingFunction where
  line : Nat
  name : String
  entry : String
  paramCount : UInt8
  deriving DecidableEq, Repr

/-- What is known after some lines. -/
structure Draft where
  constants : ConstantPool := {}
  symbols : List (String × UInt16) := []
  functions : Array PendingFunction := #[]
  instructions : Array PendingInstruction := #[]

namespace Draft

/-- Gives a name a value, which has to fit 16 bits. A name has one meaning. -/
def define (draft : Draft) (name : String) (value : Nat) : Except Problem Draft :=
  if value ≥ 2 ^ 16 then
    .error (.invalidDirective s!"symbol {name} value {value} does not fit in 16 bits")
  else if (draft.symbols.lookup name).isSome then .error (.duplicateSymbol name)
  else .ok { draft with symbols := (name, UInt16.ofNat value) :: draft.symbols }

def addStatement (draft : Draft) (line : Nat) : Statement → Except Problem Draft
  | .constant name value =>
    let (index, constants) := draft.constants.add value
    define { draft with constants } name index
  | .function name entry paramCount =>
    let functions := draft.functions.push ⟨line, name, entry, paramCount⟩
    define { draft with functions } name draft.functions.size
  | .instruction op operands =>
    .ok { draft with instructions := draft.instructions.push ⟨line, op, operands⟩ }

/-- Takes in a line: first its label, then its statement. -/
def addLine (draft : Draft) (line : Nat) (content : Line) : Except Problem Draft := do
  let draft ←
    match content.label with
    | some label => draft.define label draft.instructions.size
    | none => pure draft
  match ← content.statement with
  | some statement => draft.addStatement line statement
  | none => return draft

def addText (draft : Draft) (entry : List Char × Nat) : Except Error Draft :=
  match draft.addLine entry.2 (readLine entry.1) with
  | .ok draft => .ok draft
  | .error problem => .error ⟨entry.2, problem⟩

/-! ## Resolution -/

def symbol (draft : Draft) (name : String) : Except Problem UInt16 :=
  match draft.symbols.lookup name with
  | some value => .ok value
  | none => .error (.undefinedSymbol name)

def register (token : String) : Except Problem UInt8 :=
  match readRegister? token.toList with
  | some number => .ok number
  | none => .error (.invalidRegister token)

/-- Resolves an immediate: a number of 16 bits, negative only where the opcode reads it as signed,
or a name. -/
def immediate (draft : Draft) (op : Opcode) (token : String) : Except Problem UInt16 :=
  match readInteger? token.toList with
  | some value =>
    if (0 ≤ value ∧ value < 2 ^ 16) ∨ (op = .loadInt ∧ -(2 ^ 15) ≤ value ∧ value < 0) then
      .ok (UInt16.ofInt value)
    else .error (.invalidImmediate token)
  | none =>
    if isIdentifier token.toList then draft.symbol token else .error (.invalidImmediate token)

/-- Resolves the operands of an instruction in the layout of its opcode. -/
def operands (draft : Draft) (ins : PendingInstruction) : Except Problem Operands :=
  match ins.op.shape, ins.operands with
  | .none, [] => .ok .none
  | .oneReg, [a] => do return .regs1 (← register a)
  | .twoReg, [a, b] => do return .regs2 (← register a) (← register b)
  | .threeReg, [a, b, c] => do return .regs3 (← register a) (← register b) (← register c)
  | .imm, [value] => do return .imm (← draft.immediate ins.op value)
  | .immReg, [a, value] => do return .immReg (← register a) (← draft.immediate ins.op value)
  | shape, given => .error (.operandCount ins.op.name shape.operandCount given.length)

def word (draft : Draft) (ins : PendingInstruction) : Except Error UInt32 :=
  match draft.operands ins with
  | .ok operands => .ok (Instruction.encode ⟨ins.op.byte, operands⟩)
  | .error problem => .error ⟨ins.line, problem⟩

def function (draft : Draft) (function : PendingFunction) : Except Error Function :=
  match draft.symbol function.entry with
  | .ok entry => .ok ⟨function.name, entry.toUInt32, function.paramCount⟩
  | .error problem => .error ⟨function.line, problem⟩

def finish (draft : Draft) (name : String) : Except Error Program := do
  let functions ← draft.functions.toList.mapM draft.function
  let code ← draft.instructions.toList.mapM draft.word
  return ⟨name, code.toArray, draft.constants, functions.toArray⟩

end Draft

def gather (source : String) : Except Error Draft :=
  ((lines source.toList).zipIdx 1).foldlM Draft.addText {}

def assemble (name source : String) : Except Error Program := do
  (← gather source).finish name

end RegisterMachine.Assembly
