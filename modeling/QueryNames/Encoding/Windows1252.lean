/-!
The single-byte encoding Windows-1252: Latin-1 with letters and signs in the place of most of its
second row of control characters.
-/

namespace QueryNames.Encoding.Windows1252

/-- The characters of the bytes from 0x80 to 0x9f. The five bytes without an assignment stay
control characters. -/
def upperControls : List Char :=
  ['€', '\u0081', '‚', 'ƒ', '„', '…', '†', '‡', 'ˆ', '‰', 'Š', '‹', 'Œ', '\u008d', 'Ž', '\u008f',
   '\u0090', '‘', '’', '“', '”', '•', '–', '—', '˜', '™', 'š', '›', 'œ', '\u009d', 'ž', 'Ÿ']

def char (byte : UInt8) : Char :=
  let n := byte.toNat
  if 0x80 ≤ n then upperControls[n - 0x80]?.getD (Char.ofNat n) else Char.ofNat n

def decode (bytes : List UInt8) : String := String.ofList (bytes.map char)

end QueryNames.Encoding.Windows1252
