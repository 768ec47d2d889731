import QueryNames.Archive.Zip
import QueryNames.Encoding.QueryText
import QueryNames.Files.Entry
import QueryNames.Schema.Model

/-!
Database packages: archives that hold the model of a database. What the archive and the model in it
are read with is a parameter.
-/

namespace QueryNames

/-- What packages are read with: a reader of archives, which tells the reason if it cannot open a
file or an entry, and one of XML documents. -/
structure Readers where
  Zip : Type
  Entry : Type
  zip : Files.Entry → Except String Zip
  find? : Zip → List UInt8 → Option Entry
  content : Zip → Entry → Except Archive.Zip.ContentError (List UInt8)
  element? : String → Option Xml.Element

def Readers.standard : Readers where
  Zip := Archive.Zip
  Entry := Archive.Entry
  zip
    | .file content => (Archive.Zip.open? content).elim (.error "the file is no archive") .ok
    | .directory _ => .error "the file is a directory"
  find? := Archive.Zip.find?
  content := Archive.Zip.content
  element? := Xml.Element.ofText?

/-- A package by the path of its file, which is not looked at until something is asked for. -/
structure Package where
  path : String
  deriving DecidableEq, Repr

namespace Package

def ofPath (path : String) : Except Failure Package :=
  if path = "" then .error .emptyPackagePath else .ok ⟨path⟩

/-- What is found, or else a failure. -/
def require (failure : Failure) : Option α → Except Failure α
  | some a => .ok a
  | none => .error failure

def notOpened (package : Package) (reason : String) : Failure :=
  .brokenArchive ("Failed to read dacpac " ++ package.path ++ ": " ++ reason)

def modelNotOpened (package : Package) (reason : String) : Failure :=
  .brokenArchive ("Failed to read model.xml in " ++ package.path ++ ": " ++ reason)

def archive (package : Package) (files : Files.FileSystem) (readers : Readers := .standard) :
    Except Failure readers.Zip :=
  match files package.path with
  | none => .error (.unreadablePackage package.path)
  | some file => (readers.zip file).mapError package.notOpened

def modelText (package : Package) (files : Files.FileSystem) (readers : Readers := .standard) :
    Except Failure String := do
  let archive ← package.archive files readers
  let entry ← require (.missingModel package.path)
    (readers.find? archive "model.xml".toUTF8.toList)
  match readers.content archive entry with
  | .ok content => require (.unreadablePackage package.path) (Encoding.utf8? content)
  | .error .damaged => .error (.unreadablePackage package.path)
  | .error (.inaccessible reason) => .error (package.modelNotOpened reason)

def tables (package : Package) (files : Files.FileSystem) (readers : Readers := .standard) :
    Except Failure (List CatalogTable) := do
  let text := Encoding.dropMark (← package.modelText files readers)
  let root ← require (.malformedModel package.path) (readers.element? text)
  return Model.tables root

def catalog (package : Package) (files : Files.FileSystem) (readers : Readers := .standard) :
    Except Failure Catalog := do
  return ⟨← package.tables files readers⟩

/-- Reads the package once for each question. -/
def provider (package : Package) (files : Files.FileSystem) (readers : Readers := .standard) :
    SchemaProvider (Except Failure) where
  columns table := do (← package.catalog files readers).provider.columns table
  columnsOfAll tables := do (← package.catalog files readers).provider.columnsOfAll tables

end Package

end QueryNames
