import QueryNames.Name
import QueryNames.Schema.Catalog
import QueryNames.Xml.Element

/-!
The model of a database: an XML document that describes all objects, among them the tables and
views with their columns.
-/

namespace QueryNames.Model

open Xml

def space : String := "http://schemas.microsoft.com/sqlserver/dac/Serialization/2012/02"

/-- Whether an element is one of the model's own of a name. -/
def isNamed (name : String) (element : Element) : Bool := element.name == ⟨some space, name⟩

def children (name : String) (element : Element) : List Element :=
  element.children.filter (isNamed name)

def child? (name : String) (element : Element) : Option Element := (children name element).head?

/-- The types of objects whose columns a query can select. -/
def columnOwners : List String := ["SqlTable", "SqlView"]

def ownsColumns (object : Element) : Bool :=
  (object.attribute? "Type").any columnOwners.contains

/-- A column is described at its place or referred to; it goes by the last part of its name. -/
def column? (entry : Element) : Option String := do
  let column ← (child? "Element" entry).or (child? "References" entry)
  (dottedParts (← column.attribute? "Name")).getLast?

def columns (object : Element) : List String :=
  match (children "Relationship" object).find? (·.attribute? "Name" == some "Columns") with
  | some relationship => (children "Entry" relationship).filterMap column?
  | none => []

/-- An object without a name is no table. -/
def table? (object : Element) : Option CatalogTable := do
  let parts := dottedParts (← object.attribute? "Name")
  let name ← parts.getLast?
  guard (name ≠ "")
  return ⟨".".intercalate parts.dropLast, name, columns object⟩

/-- The tables and views of a model, in document order. -/
def tables (root : Element) : List CatalogTable :=
  match child? "Model" root with
  | some model => ((children "Element" model).filter ownsColumns).filterMap table?
  | none => []

end QueryNames.Model
