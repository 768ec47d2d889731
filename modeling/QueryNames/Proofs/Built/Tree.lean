import QueryNames.Proofs.Mention

/-!
Trees as the grammar builds them, with the identifiers that it reads and a number of levels to nest
them in. Main statement: what is built with some levels is built with more.
-/

namespace QueryNames

/-- The star of `COUNT(*)`. -/
def Expression.isStar : Expression → Bool
  | .column ⟨none, .wildcard, _⟩ => true
  | _ => false

/-- The identifiers that stand in a node itself: the parts of names, and labels. A label may also be
a string; that one is no identifier of the text. -/
def Node.names : Node → List Identifier
  | .query q => q.into.toList.flatMap QualifiedName.parts
  | .commonTable t => t.name :: t.columns
  | .item (.expression _ label) => label.toList.filter (·.quote ≠ some .single)
  | .source (.derived _ label columns) => label.toList ++ columns
  | .source (.function name _ label) => name.parts ++ label.toList
  | .source (.variable _ label) => label.toList
  | .table t => t.name.parts ++ t.label.toList
  | .expression (.function name _ _ _) => name.parts
  | .column c => c.name.toList.flatMap QualifiedName.parts
  | _ => []

namespace Grammar

/-- What can hold what is nested. -/
inductive Tree where
  | expression (e : Expression)
  | item (item : SelectItem)
  | source (source : TableSource)
  | query (query : Query)

/-- Built with at most so many levels, the tree itself counted, of identifiers that `reads` allows.
A level is left for the operand of a sign or of `NOT`, for whatever stands in parentheses, and for
the expressions of lists and clauses. The operands of all other operators stay at the level. -/
inductive Built (reads : Identifier → Prop) : Nat → Tree → Prop
  | column {n : Nat} {column : Column} (names : ∀ name ∈ (Node.column column).names, reads name) :
      Built reads (n + 1) (.expression (.column column))
  | literal {n : Nat} {value : Literal} : Built reads (n + 1) (.expression (.literal value))
  | variable {n : Nat} {name : String} : Built reads (n + 1) (.expression (.variable name))
  | niladic {n : Nat} {name : String} : Built reads (n + 1) (.expression (.niladic name))
  | unary {n : Nat} {op : UnaryOperator} {e : Expression}
      (operand : Built reads n (.expression e)) :
      Built reads (n + 1) (.expression (.unary op e))
  | binary {n : Nat} {op : BinaryOperator} {left right : Expression}
      (first : Built reads n (.expression left)) (second : Built reads n (.expression right)) :
      Built reads n (.expression (.binary op left right))
  | function {n : Nat} {name : QualifiedName} {list : List Expression} {distinct : Bool}
      {window : Option Window} (names : ∀ part ∈ name.parts, reads part)
      (arguments : ∀ e ∈ list, e.isStar = false → Built reads n (.expression e))
      (partitionBy : ∀ w ∈ window, ∀ e ∈ w.partitionBy, Built reads n (.expression e))
      (orderBy : ∀ w ∈ window, ∀ item ∈ w.orderBy, Built reads n (.expression item.expression)) :
      Built reads (n + 1) (.expression (.function name list distinct window))
  | case {n : Nat} {operand otherwise : Option Expression} {branches : List WhenBranch}
      (subject : ∀ e ∈ operand, Built reads n (.expression e))
      (conditions : ∀ branch ∈ branches, Built reads n (.expression branch.condition))
      (results : ∀ branch ∈ branches, Built reads n (.expression branch.result))
      (last : ∀ e ∈ otherwise, Built reads n (.expression e)) :
      Built reads (n + 1) (.expression (.case operand branches otherwise))
  | cast {n : Nat} {e : Expression} {type : String} {style : Option Expression}
      (operand : Built reads n (.expression e))
      (styles : ∀ e ∈ style, Built reads n (.expression e)) :
      Built reads (n + 1) (.expression (.cast e type style))
  | subquery {n : Nat} {query : Query} (inside : Built reads n (.query query)) :
      Built reads (n + 1) (.expression (.subquery query))
  | exists {n : Nat} {query : Query} (inside : Built reads n (.query query)) :
      Built reads (n + 1) (.expression (.exists query))
  | inList {n : Nat} {e : Expression} {list : List Expression} {negated : Bool}
      (operand : Built reads (n + 1) (.expression e))
      (elements : ∀ e ∈ list, Built reads n (.expression e)) :
      Built reads (n + 1) (.expression (.inList e list negated))
  | inSubquery {n : Nat} {e : Expression} {query : Query} {negated : Bool}
      (operand : Built reads (n + 1) (.expression e)) (inside : Built reads n (.query query)) :
      Built reads (n + 1) (.expression (.inSubquery e query negated))
  | between {n : Nat} {e low high : Expression} {negated : Bool}
      (operand : Built reads n (.expression e)) (lower : Built reads n (.expression low))
      (upper : Built reads n (.expression high)) :
      Built reads n (.expression (.between e low high negated))
  | like {n : Nat} {e pattern : Expression} {escape : Option Expression} {negated : Bool}
      (operand : Built reads n (.expression e)) (like : Built reads n (.expression pattern))
      (escapes : ∀ e ∈ escape, Built reads n (.expression e)) :
      Built reads n (.expression (.like e pattern escape negated))
  | isNull {n : Nat} {e : Expression} {negated : Bool} (operand : Built reads n (.expression e)) :
      Built reads n (.expression (.isNull e negated))
  | nested {n : Nat} {e : Expression} (inside : Built reads n (.expression e)) :
      Built reads (n + 1) (.expression (.nested e))
  | wildcard {n : Nat} {location : Location} : Built reads (n + 1) (.item (.wildcard location))
  | qualifiedWildcard {n : Nat} {column : Column}
      (names : ∀ name ∈ (Node.column column).names, reads name) :
      Built reads (n + 1) (.item (.qualifiedWildcard column))
  | item {n : Nat} {e : Expression} {label : Option Identifier}
      (names : ∀ name ∈ (Node.item (.expression e label)).names, reads name)
      (inside : Built reads n (.expression e)) :
      Built reads (n + 1) (.item (.expression e label))
  | table {n : Nat} {table : NamedTable} (names : ∀ name ∈ (Node.table table).names, reads name) :
      Built reads (n + 1) (.source (.named table))
  | tableVariable {n : Nat} {name : String} {label : Option Identifier}
      (names : ∀ name ∈ label, reads name) :
      Built reads (n + 1) (.source (.variable name label))
  | tableFunction {n : Nat} {name : QualifiedName} {list : List Expression}
      {label : Option Identifier}
      (names : ∀ part ∈ (Node.source (.function name list label)).names, reads part)
      (arguments : ∀ e ∈ list, e.isStar = false → Built reads n (.expression e)) :
      Built reads (n + 1) (.source (.function name list label))
  | derived {n : Nat} {query : Query} {label : Option Identifier} {columns : List Identifier}
      (names : ∀ name ∈ (Node.source (.derived query label columns)).names, reads name)
      (inside : Built reads n (.query query)) :
      Built reads (n + 1) (.source (.derived query label columns))
  | parenthesized {n : Nat} {source : TableSource} (inside : Built reads n (.source source)) :
      Built reads (n + 1) (.source (.parenthesized source))
  | joined {n : Nat} {left right : TableSource} {kind : JoinKind} {condition : Option Expression}
      (first : Built reads (n + 1) (.source left)) (second : Built reads (n + 1) (.source right))
      (on : ∀ e ∈ condition, Built reads n (.expression e)) :
      Built reads (n + 1) (.source (.joined left right kind condition))
  | select {n : Nat} {query : Query} (noTables : query.commonTables = [])
      (alone : query.setOperation = none)
      (names : ∀ name ∈ (Node.query query).names, reads name)
      (top : ∀ top ∈ query.top, Built reads (n + 1) (.expression top.quantity))
      (items : ∀ item ∈ query.items, Built reads (n + 1) (.item item))
      (sources : ∀ source ∈ query.sources, Built reads (n + 1) (.source source))
      (condition : ∀ e ∈ query.condition, Built reads n (.expression e))
      (groupBy : ∀ e ∈ query.groupBy, Built reads n (.expression e))
      (having : ∀ e ∈ query.having, Built reads n (.expression e))
      (orderBy : ∀ item ∈ query.orderBy, Built reads n (.expression item.expression)) :
      Built reads (n + 1) (.query query)
  | withTables {n : Nat} {query : Query} {tables : List CommonTable}
      (names : ∀ table ∈ tables, ∀ name ∈ (Node.commonTable table).names, reads name)
      (inside : ∀ table ∈ tables, Built reads n (.query table.query))
      (behind : Built reads (n + 1) (.query query)) :
      Built reads (n + 1) (.query { query with commonTables := tables })
  | chained {n : Nat} {query right : Query} {operator : SetOperator}
      (first : Built reads n (.query query)) (second : Built reads n (.query right)) :
      Built reads n (.query { query with setOperation := some ⟨operator, right⟩ })

theorem Built.deepen {reads : Identifier → Prop} {n : Nat} {tree : Tree}
    (built : Built reads n tree) : Built reads (n + 1) tree := by
  induction built with
  | column names => exact .column names
  | literal => exact .literal
  | «variable» => exact .variable
  | niladic => exact .niladic
  | unary _ ih => exact .unary ih
  | binary _ _ first second => exact .binary first second
  | function names _ _ _ arguments partitionBy orderBy =>
      exact .function names arguments partitionBy orderBy
  | case _ _ _ _ subject conditions results last => exact .case subject conditions results last
  | cast _ _ operand styles => exact .cast operand styles
  | subquery _ ih => exact .subquery ih
  | «exists» _ ih => exact .exists ih
  | inList _ _ operand elements => exact .inList operand elements
  | inSubquery _ _ operand inside => exact .inSubquery operand inside
  | between _ _ _ operand lower upper => exact .between operand lower upper
  | like _ _ _ operand like escapes => exact .like operand like escapes
  | isNull _ ih => exact .isNull ih
  | nested _ ih => exact .nested ih
  | wildcard => exact .wildcard
  | qualifiedWildcard names => exact .qualifiedWildcard names
  | item names _ ih => exact .item names ih
  | table names => exact .table names
  | tableVariable names => exact .tableVariable names
  | tableFunction names _ arguments => exact .tableFunction names arguments
  | derived names _ ih => exact .derived names ih
  | parenthesized _ ih => exact .parenthesized ih
  | joined _ _ _ first second on => exact .joined first second on
  | select noTables alone names _ _ _ _ _ _ _ top items sources condition groupBy having orderBy =>
      exact .select noTables alone names top items sources condition groupBy having orderBy
  | withTables names _ _ inside behind => exact .withTables names inside behind
  | chained _ _ first second => exact .chained first second

end Grammar

end QueryNames
