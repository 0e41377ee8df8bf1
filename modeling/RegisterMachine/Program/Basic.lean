import RegisterMachine.Instruction.Word
import RegisterMachine.Program.Constant

/-!
# Programs

A program has a name, constants, functions that start at places of its code, and the code itself.
-/

namespace RegisterMachine

/-- A function of a program, which starts at a place of its code. -/
structure Function where
  name : String
  entry : UInt32
  paramCount : UInt8
  deriving DecidableEq, Repr

structure Program where
  name : String
  code : Array UInt32 := #[]
  constants : ConstantPool := {}
  functions : Array Function := #[]
  deriving DecidableEq, Repr

namespace Program

def size (program : Program) : Nat :=
  program.code.size

def isEmpty (program : Program) : Bool :=
  program.code.isEmpty

def fetch? (program : Program) (pc : Nat) : Option UInt32 :=
  program.code[pc]?

def functionIndex? (program : Program) (name : String) : Option Nat :=
  program.functions.findIdx? (·.name == name)

/-- Whether two programs are equal, with constants compared as a pool compares them. -/
def equals (a b : Program) : Bool :=
  a.name == b.name && a.code == b.code && a.constants.equals b.constants &&
    a.functions == b.functions

/-- Why a program is not well formed. -/
inductive Defect where
  | entryOutside (name : String) (entry size : Nat)
  | tooManyConstants (count : Nat)
  deriving DecidableEq, Repr

def Defect.message : Defect → String
  | .entryOutside name entry size =>
    s!"Function '{name}' entry {entry} is outside the code ({size} words)"
  | .tooManyConstants count => s!"Too many constants: {count}"

/-- The first defect of a program: functions start inside the code, and every constant has an index
of 16 bits. -/
def defect? (program : Program) : Option Defect :=
  match program.functions.find? fun function => function.entry.toNat ≥ program.size with
  | some function => some (.entryOutside function.name function.entry.toNat program.size)
  | none =>
    if program.constants.size > 2 ^ 16 then some (.tooManyConstants program.constants.size)
    else none

end Program

end RegisterMachine
