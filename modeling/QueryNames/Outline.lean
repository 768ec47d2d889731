import QueryNames.Tree

/-!
The outline of a tree: its nodes, each above the nodes inside it, in the order of the text.
-/

namespace QueryNames

inductive Node where
  | script (script : Script)
  | query (query : Query)
  | commonTable (table : CommonTable)
  | item (item : SelectItem)
  | source (source : TableSource)
  | table (table : NamedTable)
  | expression (expression : Expression)
  | column (column : Column)
  | order (item : OrderItem)

inductive Outline where
  | node (node : Node) (inside : List Outline)

def Column.outline (column : Column) : Outline := .node (.column column) []

def NamedTable.outline (table : NamedTable) : Outline := .node (.table table) []

mutual

def Expression.outline : Expression → Outline
  | e@(.column column) => .node (.expression e) [column.outline]
  | e@(.literal _) | e@(.variable _) | e@(.niladic _) => .node (.expression e) []
  | e@(.unary _ operand) => .node (.expression e) [operand.outline]
  | e@(.binary _ left right) => .node (.expression e) [left.outline, right.outline]
  | e@(.function _ arguments _ window) =>
      .node (.expression e) (Expression.outlines arguments ++ Window.outlines? window)
  | e@(.case operand branches otherwise) =>
      .node (.expression e)
        (Expression.outlines? operand ++ WhenBranch.outlines branches ++
          Expression.outlines? otherwise)
  | e@(.cast operand _ style) =>
      .node (.expression e) (operand.outline :: Expression.outlines? style)
  | e@(.subquery query) | e@(.exists query) => .node (.expression e) [query.outline]
  | e@(.inList operand list _) =>
      .node (.expression e) (operand.outline :: Expression.outlines list)
  | e@(.inSubquery operand query _) => .node (.expression e) [operand.outline, query.outline]
  | e@(.between operand low high _) =>
      .node (.expression e) [operand.outline, low.outline, high.outline]
  | e@(.like operand pattern escape _) =>
      .node (.expression e)
        (operand.outline :: pattern.outline :: Expression.outlines? escape)
  | e@(.isNull operand _) => .node (.expression e) [operand.outline]
  | e@(.nested inner) => .node (.expression e) [inner.outline]

def Expression.outlines : List Expression → List Outline
  | [] => []
  | e :: es => e.outline :: Expression.outlines es

def Expression.outlines? : Option Expression → List Outline
  | none => []
  | some e => [e.outline]

def WhenBranch.outlines : List WhenBranch → List Outline
  | [] => []
  | ⟨condition, result⟩ :: branches =>
      condition.outline :: result.outline :: WhenBranch.outlines branches

def OrderItem.outline : OrderItem → Outline
  | i@⟨e, _⟩ => .node (.order i) [e.outline]

def OrderItem.outlines : List OrderItem → List Outline
  | [] => []
  | item :: items => item.outline :: OrderItem.outlines items

def Window.outlines? : Option Window → List Outline
  | none => []
  | some ⟨partitionBy, orderBy⟩ => Expression.outlines partitionBy ++ OrderItem.outlines orderBy

def TableSource.outline : TableSource → Outline
  | s@(.named table) => .node (.source s) [table.outline]
  | s@(.joined left right _ condition) =>
      .node (.source s) (left.outline :: right.outline :: Expression.outlines? condition)
  | s@(.derived query _ _) => .node (.source s) [query.outline]
  | s@(.function _ arguments _) => .node (.source s) (Expression.outlines arguments)
  | s@(.variable _ _) => .node (.source s) []
  | s@(.parenthesized inner) => .node (.source s) [inner.outline]

def TableSource.outlines : List TableSource → List Outline
  | [] => []
  | source :: sources => source.outline :: TableSource.outlines sources

def SelectItem.outline : SelectItem → Outline
  | i@(.wildcard _) => .node (.item i) []
  | i@(.qualifiedWildcard column) => .node (.item i) [column.outline]
  | i@(.expression e _) => .node (.item i) [e.outline]

def SelectItem.outlines : List SelectItem → List Outline
  | [] => []
  | item :: items => item.outline :: SelectItem.outlines items

def CommonTable.outline : CommonTable → Outline
  | t@⟨_, _, query⟩ => .node (.commonTable t) [query.outline]

def CommonTable.outlines : List CommonTable → List Outline
  | [] => []
  | table :: tables => table.outline :: CommonTable.outlines tables

def Top.outlines? : Option Top → List Outline
  | none => []
  | some ⟨quantity, _, _⟩ => [quantity.outline]

def SetOperation.outlines? : Option SetOperation → List Outline
  | none => []
  | some ⟨_, right⟩ => [right.outline]

def Query.outline : Query → Outline
  | q@⟨_, commonTables, _, top, items, _, sources, condition, groupBy, having, orderBy,
      setOperation⟩ =>
    .node (.query q)
      (CommonTable.outlines commonTables ++ Top.outlines? top ++ SelectItem.outlines items ++
        TableSource.outlines sources ++ Expression.outlines? condition ++
        Expression.outlines groupBy ++ Expression.outlines? having ++
        OrderItem.outlines orderBy ++ SetOperation.outlines? setOperation)

end

def Script.outline (script : Script) : Outline :=
  .node (.script script) (script.queries.map Query.outline)

end QueryNames
