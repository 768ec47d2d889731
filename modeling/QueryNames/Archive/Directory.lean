import QueryNames.Archive.Entry
import QueryNames.Encoding.CodePage437
import QueryNames.Encoding.Utf8

/-!
The directory of an archive, which its end record leads to. Other data may stand in front of the
archive; the places that its records tell are then counted from its beginning.
-/

namespace QueryNames.Archive

structure Directory where
  start : Nat
  /-- The number of bytes in front of the archive. -/
  shift : Nat
  count : Nat
  /-- Whether the directory lies where the archive ends. -/
  isUndivided : Bool
  deriving DecidableEq, Repr

namespace Directory

/-- The directory of the end record at `offset`. It begins at the first record of its kind from the
place on that the end record tells, and one without entries right before the end record. -/
def ofEnd? (file : List UInt8) (offset : Nat) : Option Directory :=
  let bytes := file.drop offset
  let told := numberAt bytes 16 4
  let start? :=
    if numberAt bytes 10 2 == 0 then some (told + (offset - told))
    else if told < offset then (RecordKind.directoryEntry.occurrences file told offset).getLast?
    else none
  start?.map fun start =>
    { start := start
      shift := start - told
      count := numberAt bytes 8 2
      isUndivided := numberAt bytes 4 2 == numberAt bytes 6 2 }

/-- Whether the record at `offset` is the long end record that the locator at `locatorStart` means:
it reaches to its locator, which tells the same disk, and comes after the directory. -/
def isLongEnd (file : List UInt8) (locatorStart offset : Nat) : Bool :=
  let bytes := file.drop offset
  let size := numberAt bytes 4 8 + 12
  RecordKind.longEndRecord.begins bytes && RecordKind.longEndRecord.size ≤ size &&
    size == locatorStart - offset && numberAt bytes 20 4 == numberAt (file.drop locatorStart) 4 4 &&
    numberAt bytes 32 8 * RecordKind.directoryEntry.size + numberAt bytes 48 8 ≤ offset

/-- The directory of the long end record that the locator at `offset` leads to. -/
def ofLocator? (file : List UInt8) (offset : Nat) : Option Directory := do
  let locator := file.drop offset
  let told := numberAt locator 8 8
  let found ←
    if told < offset && numberAt locator 16 4 ≤ 1 then
      (RecordKind.longEndRecord.occurrences file told offset).reverse.find? (isLongEnd file offset)
    else none
  let bytes := file.drop found
  if numberAt bytes 24 8 ≤ numberAt bytes 32 8 && numberAt bytes 14 2 ≤ numberAt bytes 12 2 then
    return {
      start := numberAt bytes 48 8 + (found - told)
      shift := found - told
      count := numberAt bytes 32 8
      isUndivided := numberAt bytes 16 4 == numberAt bytes 20 4 }
  else none

/-- The directory of the archive that the end record at `offset` closes. Where one of its numbers is
full and a locator stands before it, the long end record counts. -/
def closedAt? (file : List UInt8) (offset : Nat) : Option Directory :=
  let bytes := file.drop offset
  let kind := RecordKind.longEndLocator
  if !(RecordKind.endRecord.begins bytes &&
      hasLength (RecordKind.endRecord.size + numberAt bytes 20 2) bytes) then none
  else if (numberAt bytes 10 2 == 0xffff || numberAt bytes 16 4 == 0xffffffff) &&
      kind.size ≤ offset && kind.begins (file.drop (offset - kind.size)) then
    ofLocator? file (offset - kind.size)
  else ofEnd? file offset

/-- The entry of a record in the directory. Its header has to begin before the directory, and a
method that stands for encryption needs the extra field on it. -/
def entry? (directory : Directory) (bytes : List UInt8) : Option Entry := do
  let names := bytes.drop RecordKind.directoryEntry.size
  let nameLength := numberAt bytes 28 2
  let extraLength := numberAt bytes 30 2
  let flags := numberAt bytes 8 2
  let comment := (names.drop (nameLength + extraLength)).take (numberAt bytes 32 2)
  let told : Entry :=
    { name := names.take nameLength
      comment :=
        if flags.testBit 11 then Encoding.Utf8.repair comment
        else (Encoding.CodePage437.decode comment).toUTF8.toList
      method := numberAt bytes 10 2
      isEncrypted := flags.testBit 0
      hasAes := false
      crc := numberAt bytes 16 4
      size := numberAt bytes 24 4
      storedSize := numberAt bytes 20 4
      headerStart := numberAt bytes 42 4 }
  let entry ← told.correctedBy? ((names.drop nameLength).take extraLength)
  let headerStart := entry.headerStart + directory.shift
  if (entry.method != 99 || entry.hasAes) && headerStart < directory.start then
    return { entry with headerStart := headerStart }
  else none

def entriesFrom? (directory : Directory) : Nat → List UInt8 → Option (List Entry)
  | 0, _ => some []
  | count + 1, bytes => do
      let size := RecordKind.directoryEntry.size + numberAt bytes 28 2 + numberAt bytes 30 2 +
        numberAt bytes 32 2
      if RecordKind.directoryEntry.begins bytes && hasLength size bytes then
        let entry ← directory.entry? bytes
        let others ← directory.entriesFrom? count (bytes.drop size)
        return entry :: others
      else none

def entries? (directory : Directory) (file : List UInt8) : Option (List Entry) :=
  if directory.isUndivided then
    directory.entriesFrom? directory.count (file.drop directory.start)
  else none

end Directory

end QueryNames.Archive
