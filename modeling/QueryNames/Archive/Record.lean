/-!
Records of archives: each begins with a signature and has a part of a fixed size, in which numbers
stand with the low byte first.
-/

namespace QueryNames.Archive

/-- The number in `size` bytes from `offset` on, the low byte first. -/
def numberAt (bytes : List UInt8) (offset size : Nat) : Nat :=
  ((bytes.drop offset).take size).foldr (fun byte high => byte.toNat + 0x100 * high) 0

def numberBytes : Nat → Nat → List UInt8
  | 0, _ => []
  | size + 1, n => UInt8.ofNat (n % 0x100) :: numberBytes size (n / 0x100)

@[simp] theorem length_numberBytes (size n : Nat) : (numberBytes size n).length = size := by
  induction size generalizing n with
  | zero => rfl
  | succ size ih => simp [numberBytes, ih]

/-- Whether there are `n` bytes, for which the ones behind are not looked at. -/
def hasLength (n : Nat) (bytes : List UInt8) : Bool := n ≤ (bytes.take n).length

theorem hasLength_iff {n : Nat} {bytes : List UInt8} :
    hasLength n bytes = true ↔ n ≤ bytes.length := by
  rw [hasLength, decide_eq_true_iff, List.length_take]
  omega

/-- A kind of record: its signature and the size of its fixed part. -/
structure RecordKind where
  signature : List UInt8
  size : Nat

namespace RecordKind

/-- In front of the data of an entry. -/
def localHeader : RecordKind := ⟨[0x50, 0x4b, 0x03, 0x04], 30⟩

def directoryEntry : RecordKind := ⟨[0x50, 0x4b, 0x01, 0x02], 46⟩

def endRecord : RecordKind := ⟨[0x50, 0x4b, 0x05, 0x06], 22⟩

/-- The end of an archive in numbers of 64 bits. -/
def longEndRecord : RecordKind := ⟨[0x50, 0x4b, 0x06, 0x06], 56⟩

/-- Tells where the long end record stands, right before the end record. -/
def longEndLocator : RecordKind := ⟨[0x50, 0x4b, 0x06, 0x07], 20⟩

def begins (kind : RecordKind) (bytes : List UInt8) : Bool :=
  kind.signature.isPrefixOf bytes && hasLength kind.size bytes

/-- Where the signature stands, counted from `offset`; the places found are put before `before`, so
that the last one comes first. -/
def occurrencesFrom (kind : RecordKind) (before : List Nat) (offset : Nat) :
    List UInt8 → List Nat
  | [] => before
  | byte :: rest =>
      kind.occurrencesFrom
        (if kind.signature.isPrefixOf (byte :: rest) then offset :: before else before)
        (offset + 1) rest

/-- Where the signature stands wholly between two places of a file, the last place first. -/
def occurrences (kind : RecordKind) (file : List UInt8) (first last : Nat) : List Nat :=
  kind.occurrencesFrom [] first ((file.take last).drop first)

end RecordKind

end QueryNames.Archive
