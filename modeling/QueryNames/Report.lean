import QueryNames.Extraction
import QueryNames.Files.Discovery
import QueryNames.Files.QueryFile

/-!
Reports on query files: the names in each and what is wrong with it.
-/

namespace QueryNames

structure Report where
  path : String
  tableNames : List String
  fieldNames : List String
  errors : List Diagnostic
  deriving DecidableEq, Repr

namespace Report

def ofText (path text : String) : Report :=
  let result := ParseResult.ofText text
  ⟨path, result.script.tableNames, result.script.fieldNames, result.errors⟩

def isClean (report : Report) : Bool := report.errors.isEmpty

def ofFile (files : Files.FileSystem) (path : String) : Except Failure Report := do
  return ofText path (← Files.queryText files path)

/-- The first file that cannot be read decides. -/
def ofFiles (files : Files.FileSystem) (paths : List String) : Except Failure (List Report) :=
  paths.mapM (ofFile files)

def lines (report : Report) : List String :=
  [report.path, "  tables: " ++ ", ".intercalate report.tableNames,
    "  fields: " ++ ", ".intercalate report.fieldNames] ++
    report.errors.map fun error => "  " ++ error.display

end Report

end QueryNames
