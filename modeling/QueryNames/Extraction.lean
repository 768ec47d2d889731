import QueryNames.Grammar.Script
import QueryNames.Visit

/-!
The names in a query text: its tables by their own names, its columns by all parts of theirs, and
whether a select list asks for all columns of something.
-/

namespace QueryNames

namespace Visitor

/-- Adds the own name of each table that is read by name. -/
def tableNames : Visitor (List String) :=
  everywhere fun
    | .table table, names => names ++ [table.name.base.value]
    | _, names => names

/-- Adds every part of every column. -/
def fieldNames : Visitor (List String) :=
  everywhere fun
    | .column { name := some name, .. }, names => names ++ name.values
    | _, names => names

/-- Notes a star in a select list, and does not look inside it. -/
def wildcard : Visitor Bool where
  enter
    | .item (.wildcard _), _ => (true, false)
    | .item (.qualifiedWildcard _), _ => (true, false)
    | _, found => (found, true)

end Visitor

namespace Script

def tableNames (script : Script) : List String := script.outline.visit .tableNames []

def fieldNames (script : Script) : List String := script.outline.visit .fieldNames []

def selectsWildcard (script : Script) : Bool := script.outline.visit .wildcard false

end Script

def tableNames (text : String) : List String := (ParseResult.ofText text).script.tableNames

def fieldNames (text : String) : List String := (ParseResult.ofText text).script.fieldNames

end QueryNames
