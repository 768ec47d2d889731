/-!
Decompression of deflated data: blocks of plain bytes, or of literals and copies of earlier output
written in canonical Huffman codes. The data have to be whole: to the end of the last block.
-/

namespace QueryNames.Archive.Inflate

/-- The bits of a byte, the lowest first. -/
def bitsOfByte (byte : UInt8) : List Bool := (List.range 8).map byte.toNat.testBit

abbrev Read (α : Type) := StateT (List Bool) Option α

def corrupt : Read α := fun _ => none

def bit : Read Bool := do
  match ← get with
  | [] => corrupt
  | b :: rest =>
      set rest
      return b

/-- A number of `n` bits, the lowest first. -/
def number : Nat → Read Nat
  | 0 => return 0
  | n + 1 => do
      let low ← bit
      let high ← number n
      return low.toNat + 2 * high

/-- Past the rest of the current byte. -/
def align : Read Unit := modify fun bits => bits.drop (bits.length % 8)

/-! Canonical codes: of one length in the order of the symbols, and shorter ones before longer. -/

structure Code where
  /-- How many symbols have a code of each length, from length one on. -/
  counts : List Nat
  symbols : Array Nat

namespace Code

def maxLength : Nat := 15

def ofLengths (lengths : List Nat) : Code :=
  let withLength (n : Nat) := (lengths.zipIdx.filter (·.1 == n)).map (·.2)
  let groups := (List.range maxLength).map fun n => withLength (n + 1)
  ⟨groups.map List.length, groups.flatten.toArray⟩

/-- The codes that stay free when each length has its share, or none if there are not enough. -/
def free (counts : List Nat) : Option Nat :=
  counts.foldlM (fun free count => if count ≤ 2 * free then some (2 * free - count) else none) 1

/-- Whether every row of bits begins with a code. -/
def isComplete (code : Code) : Bool := free code.counts == some 0

/-- An incomplete code has no symbol, or a single one of length one. -/
def isUsable (code : Code) : Bool :=
  code.isComplete || code.symbols.isEmpty || (code.symbols.size == 1 && code.counts.take 1 == [1])

def symbolFrom (symbols : Array Nat) (value first index : Nat) : List Nat → Read Nat
  | [] => corrupt
  | count :: counts => do
      let value := 2 * value + (← bit).toNat
      if value < first + count then
        match symbols[index + (value - first)]? with
        | some symbol => return symbol
        | none => corrupt
      else symbolFrom symbols value (2 * (first + count)) (index + count) counts

def symbol (code : Code) : Read Nat := symbolFrom code.symbols 0 0 0 code.counts

end Code

def fixedLiterals : Code :=
  .ofLengths (List.replicate 144 8 ++ List.replicate 112 9 ++ List.replicate 24 7 ++
    List.replicate 8 8)

def fixedDistances : Code := .ofLengths (List.replicate 30 5)

/-- The order in which the lengths of the code for code lengths are given. -/
def lengthOrder : List Nat := [16, 17, 18, 0, 8, 7, 9, 6, 10, 5, 11, 4, 12, 3, 13, 2, 14, 1, 15]

/-- Reads `wanted` code lengths; three symbols stand for repetitions. -/
def codeLengths (code : Code) (wanted : Nat) : (fuel : Nat) → List Nat → Read (List Nat)
  | 0, _ => corrupt
  | fuel + 1, reversed =>
      if reversed.length = wanted then return reversed.reverse
      else if wanted < reversed.length then corrupt
      else do
        let symbol ← code.symbol
        let again (length times : Nat) :=
          codeLengths code wanted fuel (List.replicate times length ++ reversed)
        match symbol, reversed with
        | 16, last :: _ => again last (3 + (← number 2))
        | 16, [] => corrupt
        | 17, _ => again 0 (3 + (← number 3))
        | 18, _ => again 0 (11 + (← number 7))
        | length, _ => again length 1

/-- The literals, the end of a block and the lengths of copies. -/
def maxLiterals : Nat := 286

def maxDistances : Nat := 30

/-- The two codes of a block that brings its own. -/
def dynamicCodes : Read (Code × Code) := do
  let literals := 257 + (← number 5)
  let distances := 1 + (← number 5)
  let given := lengthOrder.take (4 + (← number 4))
  let lengths ← given.mapM fun symbol => return (symbol, ← number 3)
  let code := Code.ofLengths ((List.range 19).map fun symbol => (lengths.lookup symbol).getD 0)
  if maxLiterals < literals || maxDistances < distances || !code.isComplete then corrupt
  else
    let all ← codeLengths code (literals + distances) (literals + distances + 1) []
    let literalCode := Code.ofLengths (all.take literals)
    let distanceCode := Code.ofLengths (all.drop literals)
    if literalCode.isUsable && distanceCode.isUsable then return (literalCode, distanceCode)
    else corrupt

/-! Literals and copies. -/

/-- The base of each length symbol from 257 on and its number of further bits. -/
def lengthBases : List (Nat × Nat) :=
  [(3, 0), (4, 0), (5, 0), (6, 0), (7, 0), (8, 0), (9, 0), (10, 0), (11, 1), (13, 1), (15, 1),
  (17, 1), (19, 2), (23, 2), (27, 2), (31, 2), (35, 3), (43, 3), (51, 3), (59, 3), (67, 4),
    (83, 4), (99, 4), (115, 4), (131, 5), (163, 5), (195, 5), (227, 5), (258, 0)]

def distanceBases : List (Nat × Nat) :=
  [(1, 0), (2, 0), (3, 0), (4, 0), (5, 1), (7, 1), (9, 2), (13, 2), (17, 3), (25, 3), (33, 4),
   (49, 4), (65, 5), (97, 5), (129, 6), (193, 6), (257, 7), (385, 7), (513, 8), (769, 8), (1025, 9),
   (1537, 9), (2049, 10), (3073, 10), (4097, 11), (6145, 11), (8193, 12), (12289, 12), (16385, 13),
   (24577, 13)]

inductive Item where
  | literal (byte : UInt8)
  | copy (length distance : Nat)
  | endOfBlock

def extended (bases : List (Nat × Nat)) (n : Nat) : Read Nat :=
  match bases[n]? with
  | some (base, further) => return base + (← number further)
  | none => corrupt

def item (literals distances : Code) : Read Item := do
  let symbol ← literals.symbol
  if symbol < 256 then return .literal (UInt8.ofNat symbol)
  else if symbol = 256 then return .endOfBlock
  else
    let length ← extended lengthBases (symbol - 257)
    let distance ← extended distanceBases (← distances.symbol)
    return .copy length distance

/-- Repeats what stands `distance` bytes back, byte by byte. In front of the output stand zeros. -/
def copyBack (distance : Nat) : Nat → Array UInt8 → Array UInt8
  | 0, out => out
  | length + 1, out =>
      let byte := if distance ≤ out.size then (out[out.size - distance]?).getD 0 else 0
      copyBack distance length (out.push byte)

def items (literals distances : Code) : (fuel : Nat) → Array UInt8 → Read (Array UInt8)
  | 0, _ => corrupt
  | fuel + 1, out => do
      match ← item literals distances with
      | .literal byte => items literals distances fuel (out.push byte)
      | .copy length distance => items literals distances fuel (copyBack distance length out)
      | .endOfBlock => return out

def plainBytes : Nat → Array UInt8 → Read (Array UInt8)
  | 0, out => return out
  | n + 1, out => do
      let byte ← number 8
      plainBytes n (out.push (UInt8.ofNat byte))

def plainLength : Read Nat := do
  align
  let length ← number 16
  let complement ← number 16
  if length + complement = 0xffff then return length else corrupt

/-- A block behind its header, by its kind. -/
def block (kind : Nat) (out : Array UInt8) : Read (Array UInt8) := do
  match kind with
  | 0 => plainBytes (← plainLength) out
  | 1 => items fixedLiterals fixedDistances ((← get).length + 1) out
  | 2 => do
      let (literals, distances) ← dynamicCodes
      items literals distances ((← get).length + 1) out
  | _ => corrupt

def blocks : (fuel : Nat) → Array UInt8 → Read (Array UInt8)
  | 0, _ => corrupt
  | fuel + 1, out => do
      let last ← bit
      let kind ← number 2
      let out ← block kind out
      if last then return out else blocks fuel out

end Inflate

/-- The output of deflated data; none if they are corrupt. What follows the last block is left. -/
def inflate? (bytes : List UInt8) : Option (List UInt8) :=
  let bits := bytes.flatMap Inflate.bitsOfByte
  (Inflate.blocks (bits.length + 1) #[] bits).map (·.1.toList)

end QueryNames.Archive
