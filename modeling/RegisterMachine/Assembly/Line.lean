import RegisterMachine.Assembly.Error
import RegisterMachine.Assembly.Token
import RegisterMachine.Program.Constant

/-!
# Lines of assembly text

A line defines a constant or a function, or has an optional label and an optional instruction. What
the names in it stand for is not known yet.
-/

namespace RegisterMachine.Assembly

/-- What a line says, apart from its label. -/
inductive Statement where
  | constant (name : String) (value : Constant)
  | function (name entry : String) (paramCount : UInt8)
  | instruction (op : Opcode) (operands : List String)
  deriving DecidableEq, Repr

/-- A line. The label holds also if the rest of the line cannot be understood. -/
structure Line where
  label : Option String := none
  statement : Except Problem (Option Statement) := .ok none

def readConstant (kind : String) (value : List Char) : Except Problem Constant :=
  let orFail (message : String) : Option Constant → Except Problem Constant
    | some constant => .ok constant
    | none => .error (.invalidDirective message)
  match kind with
  | "int" =>
    orFail "invalid int constant" do
      let value ← readInteger? value
      if -(2 ^ 31) ≤ value ∧ value < 2 ^ 31 then some (.int (Int32.ofInt value)) else none
  | "float" => orFail "invalid float constant" ((Binary32.parse? value).map .float)
  | "str" => orFail "invalid string literal" ((readLiteral? value).map .str)
  | "big" =>
    match Bignum.parse (String.ofList value) with
    | .ok value => .ok (.big value)
    | .error _ => .error (.invalidDirective "invalid big integer constant")
  | "native" => .ok (.native (String.ofList value))
  | other => .error (.invalidDirective s!"unknown constant kind {other}")

def directiveWord (missing : String) (text : List Char) : Except Problem (String × List Char) :=
  match nextWord? text with
  | some (word, rest) => .ok (String.ofList word, rest)
  | none => .error (.invalidDirective missing)

def readDirective (text : List Char) : Except Problem Statement := do
  let (keyword, rest) ← directiveWord "empty directive" text
  match keyword with
  | "const" =>
    let (name, rest) ← directiveWord "missing constant name" rest
    let (kind, value) ← directiveWord "missing constant kind" rest
    if value.isEmpty then throw (.invalidDirective "missing constant value")
    return .constant name (← readConstant kind value)
  | "func" =>
    let (name, rest) ← directiveWord "missing function name" rest
    let (entry, rest) ← directiveWord "missing entry label" rest
    if rest.isEmpty then return .function name entry 0
    match readByte? rest with
    | some count => return .function name entry (UInt8.ofNat count)
    | none => throw (.invalidDirective "invalid param count")
  | other => throw (.invalidDirective s!"unknown directive .{other}")

/-- Reads an instruction: a mnemonic in any case, then operands apart by commas or white space. -/
def readInstruction (text : List Char) : Except Problem Statement :=
  let (mnemonic, rest) := (splitAt? Text.isBlank text).getD (text, [])
  match Opcode.ofName? (String.ofList (mnemonic.map Char.toUpper)) with
  | none => .error (.unknownMnemonic (String.ofList mnemonic))
  | some op =>
    let operands := Text.words (fun c => c == ',' || Text.isBlank c) rest
    .ok (.instruction op (operands.map String.ofList))

/-- Reads a statement that is no directive; an empty text says nothing. -/
def readBody (text : List Char) : Except Problem (Option Statement) :=
  if text.isEmpty then .ok none else (readInstruction text).map some

def readLine (raw : List Char) : Line :=
  match Text.trim (stripComment raw) with
  | '.' :: directive => ⟨none, (readDirective directive).map some⟩
  | text =>
    match splitAt? (· == ':') text with
    | none => ⟨none, readBody text⟩
    | some (before, after) =>
      let label := Text.trim before
      if isIdentifier label then ⟨some (String.ofList label), readBody (Text.trim after)⟩
      else ⟨none, readBody text⟩

end RegisterMachine.Assembly
