import RegisterMachine.Instruction.Word

/-!
# Code with labels

A code writer emits instruction words in order. A label stands for a place in the code that may be
fixed before or after it is used; finishing writes the place of each label into the immediates that
use it.
-/

namespace RegisterMachine

/-- Code under construction: the words so far, the places of the labels that have one, and the words
that use a label, in the order they were emitted. -/
structure CodeWriter where
  code : Array UInt32 := #[]
  labels : Array (Option Nat) := #[]
  uses : Array (Nat × Nat) := #[]
  deriving Repr

namespace CodeWriter

def position (writer : CodeWriter) : Nat :=
  writer.code.size

def newLabel (writer : CodeWriter) : Nat × CodeWriter :=
  (writer.labels.size, { writer with labels := writer.labels.push none })

def bind (writer : CodeWriter) (label : Nat) : CodeWriter :=
  { writer with labels := writer.labels.setIfInBounds label (some writer.position) }

def emitWord (writer : CodeWriter) (word : UInt32) : Nat × CodeWriter :=
  (writer.position, { writer with code := writer.code.push word })

/-- Emits an instruction, unless its operands do not suit its opcode. -/
def emit (writer : CodeWriter) (op : Opcode) (operands : Operands) :
    Except EncodeError (Nat × CodeWriter) := do
  let ins ← Instruction.make op operands
  return writer.emitWord ins.encode

def emitInt (writer : CodeWriter) (register : UInt8) (value : Int) :
    Except EncodeError (Nat × CodeWriter) :=
  writer.emit .loadInt (.immReg register (UInt16.ofInt value))

/-- Emits an instruction whose immediate will be the place of a label. -/
def emitToLabel (writer : CodeWriter) (op : Opcode) (register : UInt8) (label : Nat) :
    Except EncodeError (Nat × CodeWriter) := do
  let operands :=
    match op.shape with
    | .immReg => Operands.immReg register 0
    | _ => Operands.imm 0
  let (index, writer) ← writer.emit op operands
  return (index, { writer with uses := writer.uses.push (index, label) })

def patch (word : UInt32) (target : Nat) : UInt32 :=
  (word &&& 0xffff0000) ||| UInt32.ofNat target

def resolve (labels : Array (Option Nat)) (code : Array UInt32) (use : Nat × Nat) :
    Except EncodeError (Array UInt32) :=
  match labels[use.2]?.join with
  | none => .error (.unboundLabel use.2)
  | some target =>
    if target < 2 ^ 16 then .ok (code.modify use.1 (patch · target))
    else .error (.targetOutOfRange target)

/-- The finished code, or the failure of the first use that cannot be resolved. -/
def finish (writer : CodeWriter) : Except EncodeError (Array UInt32) :=
  writer.uses.toList.foldlM (resolve writer.labels) writer.code

end CodeWriter

end RegisterMachine
