/-!
What can keep an answer from being given. What is wrong with a query text is not among it: that is
told beside the answer.
-/

namespace QueryNames

inductive Failure where
  | emptyTableName
  | emptyPackagePath
  | lookupFailed (table message : String)
  | unreadablePackage (path : String)
  | brokenArchive (message : String)
  | missingModel (path : String)
  | malformedModel (path : String)
  | unreadableQueryFile (path : String)
  deriving DecidableEq, Repr

def Failure.message : Failure → String
  | .emptyTableName => "Invalid argument `name`: table name must not be empty"
  | .emptyPackagePath => "Invalid argument `path`: dacpac path must not be empty"
  | .lookupFailed table message =>
      "Schema lookup failed for table " ++ table ++ ": " ++ message
  | .unreadablePackage path => "Failed to read dacpac: " ++ path
  | .brokenArchive message => "ZIP read error: " ++ message
  | .missingModel path => "Dacpac " ++ path ++ " does not contain model.xml"
  | .malformedModel path => "Failed to parse model.xml in " ++ path
  | .unreadableQueryFile path => "Failed to read SQL file: " ++ path

end QueryNames
