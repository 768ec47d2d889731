/-!
The single-byte encoding Code Page 437: ASCII with letters, frames and signs in its upper half.
-/

namespace QueryNames.Encoding.CodePage437

/-- The characters of the bytes from 0x80 on. -/
def upperHalf : List Char :=
  ['Ç', 'ü', 'é', 'â', 'ä', 'à', 'å', 'ç', 'ê', 'ë', 'è', 'ï', 'î', 'ì', 'Ä', 'Å',
   'É', 'æ', 'Æ', 'ô', 'ö', 'ò', 'û', 'ù', 'ÿ', 'Ö', 'Ü', '¢', '£', '¥', '₧', 'ƒ',
   'á', 'í', 'ó', 'ú', 'ñ', 'Ñ', 'ª', 'º', '¿', '⌐', '¬', '½', '¼', '¡', '«', '»',
   '░', '▒', '▓', '│', '┤', '╡', '╢', '╖', '╕', '╣', '║', '╗', '╝', '╜', '╛', '┐',
   '└', '┴', '┬', '├', '─', '┼', '╞', '╟', '╚', '╔', '╩', '╦', '╠', '═', '╬', '╧',
   '╨', '╤', '╥', '╙', '╘', '╒', '╓', '╫', '╪', '┘', '┌', '█', '▄', '▌', '▐', '▀',
   'α', 'ß', 'Γ', 'π', 'Σ', 'σ', 'µ', 'τ', 'Φ', 'Θ', 'Ω', 'δ', '∞', 'φ', 'ε', '∩',
   '≡', '±', '≥', '≤', '⌠', '⌡', '÷', '≈', '°', '∙', '·', '√', 'ⁿ', '²', '■', '\u00a0']

def char (byte : UInt8) : Char :=
  let n := byte.toNat
  if 0x80 ≤ n then upperHalf[n - 0x80]?.getD (Char.ofNat n) else Char.ofNat n

theorem char_of_lt {byte : UInt8} (h : byte.toNat < 0x80) : char byte = Char.ofNat byte.toNat := by
  simp [char, Nat.not_le.mpr h]

def decode (bytes : List UInt8) : String := String.ofList (bytes.map char)

end QueryNames.Encoding.CodePage437
