import QueryNames.Schema.Provider
import QueryNames.Text.Blank
import QueryNames.Text.Lowercase

/-!
A catalog: tables with their columns, in the order in which they were added. A name is looked up
without regard to its schema and to case, and all tables of the name answer.
-/

namespace QueryNames

structure CatalogTable where
  schema : String
  name : String
  columns : List String
  deriving DecidableEq, Repr

structure Catalog where
  tables : List CatalogTable
  deriving DecidableEq, Repr

namespace Catalog

def empty : Catalog := ⟨[]⟩

/-- A table has to have a name that is not blank. -/
def add (catalog : Catalog) (table : CatalogTable) : Except Failure Catalog :=
  if table.name.toList.all Text.isBlank then .error .emptyTableName
  else .ok ⟨catalog.tables ++ [table]⟩

def columns (catalog : Catalog) (name : String) : List String :=
  (catalog.tables.filter fun table => Text.sameName table.name name).flatMap (·.columns)

def provider [Monad m] (catalog : Catalog) : SchemaProvider m :=
  .ofColumns fun name => pure (catalog.columns name)

@[simp] theorem columns_append (a b : List CatalogTable) (name : String) :
    columns ⟨a ++ b⟩ name = columns ⟨a⟩ name ++ columns ⟨b⟩ name := by simp [columns]

end Catalog

end QueryNames
