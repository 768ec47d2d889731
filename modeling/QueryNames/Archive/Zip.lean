import QueryNames.Archive.Directory
import QueryNames.Archive.Inflate

/-!
ZIP archives. A directory at the end of the file names the entries, each of which lies somewhere in
the file behind a header of its own.
-/

namespace QueryNames.Archive

structure Zip where
  file : List UInt8
  entries : List Entry
  deriving DecidableEq, Repr

namespace Zip

/-- The archive in a file: of several possible ends the last counts that holds together. -/
def open? (file : List UInt8) : Option Zip :=
  ((RecordKind.endRecord.occurrences file 0 file.length).findSome? fun offset =>
    (Directory.closedAt? file offset).bind fun directory => directory.entries? file).map (⟨file, ·⟩)

/-- The entry of a name, the last one if there are several. -/
def find? (zip : Zip) (name : List UInt8) : Option Entry :=
  zip.entries.reverse.find? (·.name == name)

/-- The bytes of an entry as they are stored, behind its header. -/
def stored? (zip : Zip) (entry : Entry) : Option (List UInt8) :=
  let header := zip.file.drop entry.headerStart
  if RecordKind.localHeader.begins header then
    let size := RecordKind.localHeader.size + numberAt header 26 2 + numberAt header 28 2
    some ((header.drop size).take entry.storedSize)
  else none

/-- Why an entry has no content: it cannot be opened, or not be read. -/
inductive ContentError where
  | inaccessible (reason : String)
  | damaged
  deriving DecidableEq, Repr

/-- The content of an entry, which has to agree with its checksum. -/
def content (zip : Zip) (entry : Entry) : Except ContentError (List UInt8) := do
  if entry.isEncrypted || entry.hasAes then throw (.inaccessible "the entry is encrypted")
  let stored ← (zip.stored? entry).elim (throw (.inaccessible "the entry has no header")) pure
  let content ←
    match entry.method with
    | 0 => pure stored
    | 8 => (inflate? stored).elim (throw .damaged) pure
    | _ => throw (.inaccessible "the method of compression is unknown")
  if (crc32 content).toNat = entry.crc then pure content else throw .damaged

/-! Writing archives, without compression. -/

/-- The fields that both records of an entry share, from the flags (names in UTF-8) to the length
of the name. -/
def sharedFields (name content : List UInt8) : List UInt8 :=
  numberBytes 2 0x0800 ++ numberBytes 2 0 ++ numberBytes 4 0x00210000 ++
    numberBytes 4 (crc32 content).toNat ++ numberBytes 4 content.length ++
    numberBytes 4 content.length ++ numberBytes 2 name.length

def localRecord (name content : List UInt8) : List UInt8 :=
  RecordKind.localHeader.signature ++ numberBytes 2 20 ++ sharedFields name content ++
    numberBytes 2 0 ++ name ++ content

def directoryRecord (offset : Nat) (name content : List UInt8) : List UInt8 :=
  RecordKind.directoryEntry.signature ++ numberBytes 2 20 ++ numberBytes 2 20 ++
    sharedFields name content ++ numberBytes 12 0 ++ numberBytes 4 offset ++ name

/-- The directory of entries of which the first lies at `offset`. -/
def directory : (offset : Nat) → List (List UInt8 × List UInt8) → List UInt8
  | _, [] => []
  | offset, (name, content) :: rest =>
      directoryRecord offset name content ++
        directory (offset + (localRecord name content).length) rest

def pack (entries : List (List UInt8 × List UInt8)) : List UInt8 :=
  let body := entries.flatMap fun (name, content) => localRecord name content
  let records := directory 0 entries
  body ++ records ++ RecordKind.endRecord.signature ++ numberBytes 4 0 ++
    numberBytes 2 entries.length ++ numberBytes 2 entries.length ++ numberBytes 4 records.length ++
    numberBytes 4 body.length ++ numberBytes 2 0

end Zip

end QueryNames.Archive
