/-!
# Checksum

The cyclic redundancy check of 32 bits that archives use: the bits of a text, lowest first, divided
by a fixed polynomial over the field of two elements, starting from all ones and complemented at the
end.
-/

namespace RegisterMachine.Bytes

/-- The polynomial, its bits reversed, without the leading one. -/
def polynomial : UInt32 := 0xedb88320

def crcBit (crc : UInt32) : UInt32 :=
  if crc &&& 1 = 1 then (crc >>> 1) ^^^ polynomial else crc >>> 1

def crcByte (crc : UInt32) (byte : UInt8) : UInt32 :=
  let mixed := crc ^^^ byte.toUInt32
  crcBit (crcBit (crcBit (crcBit (crcBit (crcBit (crcBit (crcBit mixed)))))))

def crc32 (bytes : List UInt8) : UInt32 :=
  ~~~(bytes.foldl crcByte 0xffffffff)

end RegisterMachine.Bytes
