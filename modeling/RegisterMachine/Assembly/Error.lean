/-!
# Assembly errors

Why an assembly text is no program. Every error names the line, counted from one.
-/

namespace RegisterMachine.Assembly

/-- What is wrong with a line. -/
inductive Problem where
  | unknownMnemonic (name : String)
  | operandCount (mnemonic : String) (expected actual : Nat)
  | invalidRegister (token : String)
  | invalidImmediate (token : String)
  | undefinedSymbol (name : String)
  | duplicateSymbol (name : String)
  | invalidDirective (message : String)
  deriving DecidableEq, Repr

def Problem.message : Problem → String
  | .unknownMnemonic name => s!"unknown mnemonic {name}"
  | .operandCount mnemonic expected actual =>
    s!"{mnemonic} expects {expected} operands, got {actual}"
  | .invalidRegister token => s!"invalid register {token}"
  | .invalidImmediate token => s!"invalid immediate {token}"
  | .undefinedSymbol name => s!"undefined symbol {name}"
  | .duplicateSymbol name => s!"duplicate symbol {name}"
  | .invalidDirective message => message

/-- A problem with the line it was found on. -/
structure Error where
  line : Nat
  problem : Problem
  deriving DecidableEq, Repr

def Error.message (error : Error) : String :=
  s!"line {error.line}: {error.problem.message}"

end RegisterMachine.Assembly
