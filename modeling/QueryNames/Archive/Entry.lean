import QueryNames.Archive.Crc32
import QueryNames.Archive.Record
import QueryNames.Encoding.Utf8

/-!
Entries of archives as the directory tells them: a record of fixed fields, and extra fields that
correct it. Extra fields that break off are let pass, and one that contradicts itself spoils the
archive.
-/

namespace QueryNames.Archive

structure Entry where
  name : List UInt8
  /-- In UTF-8. -/
  comment : List UInt8
  method : Nat
  isEncrypted : Bool
  /-- Whether an extra field tells how the entry is encrypted with AES. -/
  hasAes : Bool
  crc : Nat
  size : Nat
  storedSize : Nat
  headerStart : Nat
  deriving DecidableEq, Repr

namespace ExtraField

/-- Why reading stops before the last field. -/
inductive Halt where
  | exhausted
  | contradictory
  deriving DecidableEq, Repr

/-- The extra fields that are left and the entry as corrected so far, which stays when reading
stops. -/
structure Progress where
  rest : List UInt8
  entry : Entry

abbrev Read := ExceptT Halt (StateM Progress)

def bytes (n : Nat) : Read (List UInt8) := do
  let rest := (← get).rest
  if hasLength n rest then
    modify fun progress => { progress with rest := rest.drop n }
    return rest.take n
  else throw .exhausted

def skip (n : Nat) : Read Unit := do
  let _ ← bytes n

def number (size : Nat) : Read Nat := return numberAt (← bytes size) 0 size

def require (holds : Bool) : Read Unit := if holds then pure () else throw .contradictory

def correct (change : Entry → Entry) : Read Unit :=
  modify fun progress => { progress with entry := change progress.entry }

/-- Reads a number of 64 bits, if the field of 32 bits that it replaces is full or all of them are
given, and tells how many bytes it takes. -/
def widen (length short : Nat) (change : Nat → Entry → Entry) : Read Nat := do
  if 24 ≤ length || short == 0xffffffff then
    correct (change (← number 8))
    return 8
  else return 0

def wideNumbers (length : Nat) : Read Unit := do
  let entry := (← get).entry
  let size ← widen length entry.size fun n entry => { entry with size := n }
  let storedSize ← widen length entry.storedSize fun n entry => { entry with storedSize := n }
  let headerStart ← widen length entry.headerStart fun n entry => { entry with headerStart := n }
  let taken := size + storedSize + headerStart
  require (taken ≤ length)
  skip (length - taken)

/-- The three times that the file system NTFS keeps. -/
def fileSystemTimes (length : Nat) : Read Unit := do
  require (length == 32)
  skip 4
  require ((← number 2) == 1)
  require ((← number 2) == 24)
  skip 24

/-- Up to three times, of which flags tell the ones that are given; of several flagged ones the
first may be the only one. -/
def flaggedTimes (length : Nat) : Read Unit := do
  let flags ← number 1
  let count := ((List.range 8).filter flags.testBit).length
  require (length == 5 || length == 1 + 4 * count)
  require (flags < 8)
  skip (length - 1)

/-- A text in UTF-8 in the place of another one, whose checksum comes first. -/
def unicode (length : Nat) (replaced : List UInt8) : Read (List UInt8) := do
  skip 1
  let crc ← number 4
  require (5 ≤ length)
  let text ← bytes (length - 5)
  require (crc == (crc32 replaced).toNat)
  require (Encoding.utf8? text).isSome
  return text

/-- How the entry is encrypted with AES, and the method that its data have below that. -/
def aes (length : Nat) : Read Unit := do
  require (length == 7)
  let version ← number 2
  let vendor ← number 2
  let strength ← number 1
  let method ← number 2
  require (vendor == 0x4541)
  require (version == 1 || version == 2)
  require (1 ≤ strength && strength ≤ 3)
  correct fun entry => { entry with method := method, hasAes := true }

def field (tag length : Nat) : Read Unit := do
  let entry := (← get).entry
  match tag with
  | 0x0001 => wideNumbers length
  | 0x000a => fileSystemTimes length
  | 0x5455 => flaggedTimes length
  | 0x6375 => do
      let comment ← unicode length entry.comment
      correct fun entry => { entry with comment := comment }
  | 0x7075 => do
      let name ← unicode length entry.name
      correct fun entry => { entry with name := name }
  | 0x9901 => aes length
  | _ => skip length

/-- Reads fields to the end; each has a tag and a length in front of its content. -/
def fields : (fuel : Nat) → Read Unit
  | 0 => pure ()
  | fuel + 1 => do
      if (← get).rest.isEmpty then pure ()
      else
        let tag ← number 2
        let length ← number 2
        field tag length
        fields fuel

end ExtraField

/-- The entry as its extra fields correct it. -/
def Entry.correctedBy? (entry : Entry) (extra : List UInt8) : Option Entry :=
  match (ExtraField.fields extra.length).run.run ⟨extra, entry⟩ with
  | (.error .contradictory, _) => none
  | (_, progress) => some progress.entry

@[simp] theorem Entry.correctedBy?_nil (entry : Entry) : entry.correctedBy? [] = some entry := rfl

end QueryNames.Archive
