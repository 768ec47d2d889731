/-!
The 32-bit cyclic redundancy check of archives: the remainder by the polynomial `0x04c11db7`, its
bits reversed.
-/

namespace QueryNames.Archive

private def crcBit (crc : UInt32) : UInt32 :=
  if crc &&& 1 = 1 then (crc >>> 1) ^^^ 0xedb88320 else crc >>> 1

private def crcByte (crc : UInt32) (byte : UInt8) : UInt32 :=
  Nat.repeat crcBit 8 (crc ^^^ byte.toUInt32)

def crc32 (bytes : List UInt8) : UInt32 := bytes.foldl crcByte 0xffffffff ^^^ 0xffffffff

end QueryNames.Archive
