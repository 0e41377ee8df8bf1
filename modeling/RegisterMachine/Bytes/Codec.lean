import RegisterMachine.Binary32.Basic

/-!
# Bytes of a program file

Numbers are little-endian and a text is its length in bytes followed by its UTF-8. Writers give
lists of bytes that are put after one another; readers take bytes from the front of the rest of a
file and keep what they have taken also when they fail.
-/

namespace RegisterMachine

/-- Why the bytes of a file cannot be read. -/
inductive DecodeError where
  | unexpectedEnd (offset : Nat)
  | invalidUtf8 (offset : Nat)
  | invalidTag (tag : UInt8) (offset : Nat)
  | invalidBignum (offset : Nat)
  deriving DecidableEq, Repr

def DecodeError.message : DecodeError → String
  | .unexpectedEnd offset => s!"Unexpected end of module at offset {offset}"
  | .invalidUtf8 offset => s!"Invalid UTF-8 string at offset {offset}"
  | .invalidTag tag offset => s!"Invalid constant tag {tag} at offset {offset}"
  | .invalidBignum offset => s!"Invalid bignum literal at offset {offset}"

namespace Bytes

/-! ## Writing -/

/-- The four bytes of a word, lowest first. -/
def ofUInt32 (word : UInt32) : List UInt8 :=
  [word.toUInt8, (word >>> 8).toUInt8, (word >>> 16).toUInt8, (word >>> 24).toUInt8]

def ofText (text : String) : List UInt8 :=
  text.toByteArray.toList

def ofString (text : String) : List UInt8 :=
  ofUInt32 (UInt32.ofNat (ofText text).length) ++ ofText text

def patch (bytes : List UInt8) (offset : Nat) (word : UInt32) : List UInt8 :=
  bytes.take offset ++ ofUInt32 word ++ bytes.drop (offset + 4)

/-! ## Reading -/

/-- The rest of a file, and how much of it was taken. -/
structure Reader where
  rest : List UInt8
  position : Nat := 0
  deriving Repr

abbrev Parser := EStateM DecodeError Reader

def position : Parser Nat :=
  return (← get).position

/-- Takes a number of bytes, or nothing if there are not so many. -/
def take (count : Nat) : Parser (List UInt8) := do
  let reader ← get
  let taken := reader.rest.take count
  if taken.length < count then throw (.unexpectedEnd reader.position)
  set (Reader.mk (reader.rest.drop count) (reader.position + count))
  return taken

def readUInt8 : Parser UInt8 :=
  return (← take 1).headD 0

/-- The word of four bytes, lowest first. -/
def toUInt32 : List UInt8 → UInt32
  | [] => 0
  | byte :: rest => byte.toUInt32 ||| (toUInt32 rest <<< 8)

def readUInt32 : Parser UInt32 :=
  return toUInt32 (← take 4)

def readInt32 : Parser Int32 :=
  return (← readUInt32).toInt32

def readBinary32 : Parser Binary32 :=
  return ⟨← readUInt32⟩

def toText? (bytes : List UInt8) : Option String :=
  String.fromUTF8? (ByteArray.mk bytes.toArray)

def readString : Parser String := do
  let start ← position
  let length ← readUInt32
  let bytes ← take length.toNat
  match toText? bytes with
  | some text => return text
  | none => throw (.invalidUtf8 start)

def readMany (item : Parser α) : Nat → Parser (List α)
  | 0 => return []
  | count + 1 => do
    let first ← item
    let others ← readMany item count
    return first :: others

end Bytes

end RegisterMachine
