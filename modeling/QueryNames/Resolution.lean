import QueryNames.Extraction
import QueryNames.Schema.Provider

/-!
Field names with wildcards resolved: a query that asks for all columns answers with the columns of
its tables.
-/

namespace QueryNames

/-- What counts as a wildcard: any star in the text, or only a select list that holds one. -/
inductive WildcardDetection where
  | textual
  | structural
  deriving DecidableEq, Repr

instance : Inhabited WildcardDetection := ⟨.textual⟩

def WildcardDetection.fires (detection : WildcardDetection) (text : String) (script : Script) :
    Bool :=
  match detection with
  | .textual => text.toList.contains '*'
  | .structural => script.selectsWildcard

/-- Without a wildcard nobody is asked for columns. -/
def resolveFieldNames [Monad m] (provider : SchemaProvider m) (detection : WildcardDetection)
    (text : String) : m (List String) :=
  let script := (ParseResult.ofText text).script
  if detection.fires text script then provider.columnsOfAll script.tableNames
  else pure script.fieldNames

/-- The same, where nothing is said about what counts as a wildcard. -/
def resolveFieldNamesByDefault [Monad m] (provider : SchemaProvider m) (text : String) :
    m (List String) :=
  resolveFieldNames provider default text

end QueryNames
