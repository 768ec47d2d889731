import QueryNames.Failure

/-!
Where the columns of tables come from. Main statement: asking for several tables gives the columns
of each in turn.
-/

namespace QueryNames

/-- A source of columns, asked for one table or for several at once. -/
structure SchemaProvider (m : Type → Type) where
  columns : String → m (List String)
  columnsOfAll : List String → m (List String)

namespace SchemaProvider

/-- Asks for one table after the other. -/
def inTurn [Monad m] (columns : String → m (List String)) : List String → m (List String)
  | [] => pure []
  | table :: tables => do
      let first ← columns table
      let others ← inTurn columns tables
      return first ++ others

def ofColumns [Monad m] (columns : String → m (List String)) : SchemaProvider m :=
  ⟨columns, inTurn columns⟩

/-- A pointer to a source: its questions are put to the source itself. -/
def pointer (provider : SchemaProvider m) : SchemaProvider m where
  columns table := provider.columns table
  columnsOfAll tables := provider.columnsOfAll tables

/-- Lookups that may fail, and the tables asked for, in order. -/
abbrev Noted := ExceptT Failure (StateM (List String))

/-- Notes each table that it is asked for. -/
def noting (columns : String → Except Failure (List String)) : SchemaProvider Noted :=
  ofColumns fun table => do
    modify (· ++ [table])
    liftExcept (columns table)

/-- Notes each table that it is asked for, and may answer by what it was asked before. -/
def recalling (answer : List String → String → Except Failure (List String)) :
    SchemaProvider Noted :=
  ofColumns fun table => do
    let asked ← get
    modify (· ++ [table])
    liftExcept (answer asked table)

@[simp] theorem inTurn_ok (columns : String → List String) (tables : List String) :
    inTurn (fun table => Except.ok (columns table) : String → Except Failure (List String)) tables =
      .ok (tables.flatMap columns) := by
  induction tables with
  | nil => rfl
  | cons table tables ih => simp [inTurn, ih, bind, Except.bind, pure, Except.pure]

end SchemaProvider

end QueryNames
