/-!
UTF-16: code units of two bytes; a character beyond the first 65536 takes a high and a low surrogate
unit, and neither may stand alone.
-/

namespace QueryNames.Encoding.Utf16

inductive ByteOrder where
  | littleEndian
  | bigEndian
  deriving DecidableEq, Repr

def ByteOrder.unit (order : ByteOrder) (first second : UInt8) : Nat :=
  match order with
  | .littleEndian => first.toNat + 0x100 * second.toNat
  | .bigEndian => 0x100 * first.toNat + second.toNat

/-- No units if a byte is left over. -/
def units? (order : ByteOrder) : List UInt8 → Option (List Nat)
  | [] => some []
  | [_] => none
  | first :: second :: rest => (units? order rest).map (order.unit first second :: ·)

def isHigh (unit : Nat) : Bool := 0xd800 ≤ unit && unit < 0xdc00

def isLow (unit : Nat) : Bool := 0xdc00 ≤ unit && unit < 0xe000

def pair (high low : Nat) : Char := Char.ofNat (0x10000 + (high - 0xd800) * 0x400 + (low - 0xdc00))

def chars? : List Nat → Option (List Char)
  | [] => some []
  | [unit] => if isHigh unit || isLow unit then none else some [Char.ofNat unit]
  | unit :: next :: rest =>
      if isHigh unit then
        if isLow next then (chars? rest).map (pair unit next :: ·) else none
      else if isLow unit then none
      else (chars? (next :: rest)).map (Char.ofNat unit :: ·)

def decode? (order : ByteOrder) (bytes : List UInt8) : Option String :=
  ((units? order bytes).bind chars?).map String.ofList

end QueryNames.Encoding.Utf16
