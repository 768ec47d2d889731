import QueryNames.Name

/-!
The tree of a query text: what names tables and columns, and the clauses that hold such names.
Hints, `FOR` and `OPTION` clauses leave no trace in it.
-/

namespace QueryNames

inductive ColumnKind where
  | regular
  | wildcard
  deriving DecidableEq, Repr

/-- The name is absent for the star of `COUNT(*)`. -/
structure Column where
  name : Option QualifiedName
  kind : ColumnKind
  location : Location
  deriving DecidableEq, Repr

/-- A table that is read by name. The label is the name that a query gives it for its own use. -/
structure NamedTable where
  name : QualifiedName
  label : Option Identifier
  deriving DecidableEq, Repr

inductive JoinKind where
  | inner | leftOuter | rightOuter | fullOuter | cross | crossApply | outerApply
  deriving DecidableEq, Repr

inductive SetOperator where
  | union | unionAll | except | intersect
  deriving DecidableEq, Repr

inductive Literal where
  | string (value : String)
  | number (text : String)
  | null
  deriving DecidableEq, Repr

inductive UnaryOperator where
  | plus | minus | bitwiseNot | not
  deriving DecidableEq, Repr

inductive BinaryOperator where
  | eq | notEq | lt | gt | ltEq | gtEq | notLt | notGt
  | plus | minus | multiply | divide | modulo
  | bitwiseAnd | bitwiseOr | bitwiseXor
  | and | or
  deriving DecidableEq, Repr

mutual

inductive Expression where
  | column (column : Column)
  | literal (value : Literal)
  | variable (name : String)
  | niladic (name : String)
  | unary (op : UnaryOperator) (operand : Expression)
  | binary (op : BinaryOperator) (left right : Expression)
  | function (name : QualifiedName) (arguments : List Expression) (distinct : Bool)
      (window : Option Window)
  | case (operand : Option Expression) (branches : List WhenBranch) (otherwise : Option Expression)
  | cast (operand : Expression) (type : String) (style : Option Expression)
  | subquery (query : Query)
  | exists (query : Query)
  | inList (operand : Expression) (list : List Expression) (negated : Bool)
  | inSubquery (operand : Expression) (query : Query) (negated : Bool)
  | between (operand low high : Expression) (negated : Bool)
  | like (operand pattern : Expression) (escape : Option Expression) (negated : Bool)
  | isNull (operand : Expression) (negated : Bool)
  | nested (inner : Expression)

structure WhenBranch where
  condition : Expression
  result : Expression

structure OrderItem where
  expression : Expression
  ascending : Option Bool

structure Window where
  partitionBy : List Expression
  orderBy : List OrderItem

inductive TableSource where
  | named (table : NamedTable)
  | joined (left right : TableSource) (kind : JoinKind) (condition : Option Expression)
  | derived (query : Query) (label : Option Identifier) (columns : List Identifier)
  | function (name : QualifiedName) (arguments : List Expression) (label : Option Identifier)
  | variable (name : String) (label : Option Identifier)
  | parenthesized (inner : TableSource)

inductive SelectItem where
  | wildcard (location : Location)
  | qualifiedWildcard (column : Column)
  | expression (expression : Expression) (label : Option Identifier)

structure Top where
  quantity : Expression
  percent : Bool
  withTies : Bool

structure CommonTable where
  name : Identifier
  columns : List Identifier
  query : Query

structure SetOperation where
  operator : SetOperator
  right : Query

/-- One query and the set operation, if any, that joins another to it. A table that the query
makes (`INTO`) is not one that it reads. -/
structure Query where
  location : Location
  commonTables : List CommonTable := []
  distinct : Bool := false
  top : Option Top := none
  items : List SelectItem := []
  into : Option QualifiedName := none
  sources : List TableSource := []
  condition : Option Expression := none
  groupBy : List Expression := []
  having : Option Expression := none
  orderBy : List OrderItem := []
  setOperation : Option SetOperation := none

end

/-- The queries of a text, in its order. -/
structure Script where
  queries : List Query

end QueryNames
