import RegisterMachine.Bytes.Checksum
import RegisterMachine.Program.Basic

/-!
# Program files

A program file starts with a header of twelve bytes: the magic bytes, the version, and the checksum
of everything after the header. The payload is the name, the constants, the functions and the code.
-/

namespace RegisterMachine

/-- Why a file is no program. -/
inductive FileError where
  | decode (cause : DecodeError)
  | invalidMagic (found : List UInt8)
  | unsupportedVersion (version : UInt32)
  | checksumMismatch (expected actual : UInt32)
  | trailingBytes (count : Nat)
  deriving DecidableEq, Repr

namespace Program

def magic : List UInt8 := [0x48, 0x53, 0x42, 0x43]

def version : UInt32 := 1

def headerLength : Nat := 12

end Program

def FileError.message : FileError → String
  | .decode cause => "Decode error: " ++ cause.message
  | .invalidMagic found =>
    "Invalid magic number: expected HSBC, got [" ++
      String.intercalate ", " (found.map fun byte => toString byte.toNat) ++ "]"
  | .unsupportedVersion found => s!"Unsupported version: {found} (current: {Program.version})"
  | .checksumMismatch expected actual =>
    "Checksum mismatch: expected 0x" ++ Text.hex expected.toNat ++ ", got 0x" ++
      Text.hex actual.toNat
  | .trailingBytes count => s!"{count} trailing bytes after module payload"

namespace Function

def encode (function : Function) : List UInt8 :=
  Bytes.ofString function.name ++ Bytes.ofUInt32 function.entry ++ [function.paramCount]

def read : Bytes.Parser Function := do
  let name ← Bytes.readString
  let entry ← Bytes.readUInt32
  let paramCount ← Bytes.readUInt8
  return ⟨name, entry, paramCount⟩

end Function

namespace Program

def payload (program : Program) : List UInt8 :=
  Bytes.ofString program.name ++ program.constants.encode ++
    Bytes.ofUInt32 (UInt32.ofNat program.functions.size) ++
    program.functions.toList.flatMap Function.encode ++
    Bytes.ofUInt32 (UInt32.ofNat program.code.size) ++
    program.code.toList.flatMap Bytes.ofUInt32

def encode (program : Program) : List UInt8 :=
  let payload := program.payload
  magic ++ Bytes.ofUInt32 version ++ Bytes.ofUInt32 (Bytes.crc32 payload) ++ payload

def readPayload : Bytes.Parser Program := do
  let name ← Bytes.readString
  let constants ← ConstantPool.read
  let functionCount ← Bytes.readUInt32
  let functions ← Bytes.readMany Function.read functionCount.toNat
  let wordCount ← Bytes.readUInt32
  let code ← Bytes.readMany Bytes.readUInt32 wordCount.toNat
  return ⟨name, code.toArray, constants, functions.toArray⟩

def fileStep (step : Bytes.Parser α) (reader : Bytes.Reader) :
    Except FileError (α × Bytes.Reader) :=
  match step.run reader with
  | .ok value rest => .ok (value, rest)
  | .error cause _ => .error (.decode cause)

/-- Reads a file: the magic bytes, the version and the checksum are checked in this order before the
payload is read, and nothing may follow it. -/
def decode (file : List UInt8) : Except FileError Program := do
  let (found, reader) ← fileStep (Bytes.take 4) ⟨file, 0⟩
  if found ≠ magic then throw (.invalidMagic found)
  let (foundVersion, reader) ← fileStep Bytes.readUInt32 reader
  if foundVersion ≠ version then throw (.unsupportedVersion foundVersion)
  let (expected, reader) ← fileStep Bytes.readUInt32 reader
  let actual := Bytes.crc32 reader.rest
  if expected ≠ actual then throw (.checksumMismatch expected actual)
  let (program, reader) ← fileStep readPayload reader
  if reader.rest ≠ [] then throw (.trailingBytes reader.rest.length)
  return program

end Program

end RegisterMachine
