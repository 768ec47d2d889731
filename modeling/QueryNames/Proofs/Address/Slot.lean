import QueryNames.Proofs.Mention

/-!
Slots: where in a node others stand. Main statement: the outline of a node is put together from the
outlines of what its slots hold, in the order of the slots.
-/

namespace QueryNames

/-- The places that a node has for others, in the order of a visit. What is no node itself, such as
a window or a branch, is passed through. -/
inductive Slot where
  | queries
  | commonTables | top | items | sources
  | left | right | inner | column | table
  | operand | low | high | pattern | escape | list | style | query
  | arguments | partitionBy
  | branches | otherwise
  | condition | groupBy | having | orderBy | setOperation | expression
  deriving DecidableEq, Repr

def Slot.all : List Slot :=
  [.queries, .commonTables, .top, .items, .sources, .left, .right, .inner, .column, .table,
    .operand, .low, .high, .pattern, .escape, .list, .style, .query, .arguments, .partitionBy,
    .branches, .otherwise, .condition, .groupBy, .having, .orderBy, .setOperation, .expression]

theorem Slot.mem_all (slot : Slot) : slot ∈ all := by
  cases slot <;> decide

/-! What stands in each slot. -/

def Query.held (q : Query) : Slot → List Node
  | .commonTables => q.commonTables.map .commonTable
  | .top => q.top.toList.map (.expression ·.quantity)
  | .items => q.items.map .item
  | .sources => q.sources.map .source
  | .condition => q.condition.toList.map .expression
  | .groupBy => q.groupBy.map .expression
  | .having => q.having.toList.map .expression
  | .orderBy => q.orderBy.map .order
  | .setOperation => q.setOperation.toList.map (.query ·.right)
  | _ => []

def SelectItem.held : SelectItem → Slot → List Node
  | .qualifiedWildcard c, .column => [.column c]
  | .expression e _, .expression => [.expression e]
  | _, _ => []

def TableSource.held : TableSource → Slot → List Node
  | .named t, .table => [.table t]
  | .joined left _ _ _, .left => [.source left]
  | .joined _ right _ _, .right => [.source right]
  | .joined _ _ _ condition, .condition => condition.toList.map .expression
  | .derived q _ _, .query => [.query q]
  | .function _ arguments _, .arguments => arguments.map .expression
  | .parenthesized inner, .inner => [.source inner]
  | _, _ => []

def Expression.held : Expression → Slot → List Node
  | .column c, .column => [.column c]
  | .unary _ operand, .operand => [.expression operand]
  | .binary _ left _, .left => [.expression left]
  | .binary _ _ right, .right => [.expression right]
  | .function _ arguments _ _, .arguments => arguments.map .expression
  | .function _ _ _ window, .partitionBy =>
      window.toList.flatMap fun w => w.partitionBy.map .expression
  | .function _ _ _ window, .orderBy => window.toList.flatMap fun w => w.orderBy.map .order
  | .case operand _ _, .operand => operand.toList.map .expression
  | .case _ branches _, .branches =>
      branches.flatMap fun b => [.expression b.condition, .expression b.result]
  | .case _ _ otherwise, .otherwise => otherwise.toList.map .expression
  | .cast operand _ _, .operand => [.expression operand]
  | .cast _ _ style, .style => style.toList.map .expression
  | .subquery q, .query => [.query q]
  | .exists q, .query => [.query q]
  | .inList operand _ _, .operand => [.expression operand]
  | .inList _ list _, .list => list.map .expression
  | .inSubquery operand _ _, .operand => [.expression operand]
  | .inSubquery _ q _, .query => [.query q]
  | .between operand _ _ _, .operand => [.expression operand]
  | .between _ low _ _, .low => [.expression low]
  | .between _ _ high _, .high => [.expression high]
  | .like operand _ _ _, .operand => [.expression operand]
  | .like _ pattern _ _, .pattern => [.expression pattern]
  | .like _ _ escape _, .escape => escape.toList.map .expression
  | .isNull operand _, .operand => [.expression operand]
  | .nested inner, .inner => [.expression inner]
  | _, _ => []

namespace Node

def held : Node → Slot → List Node
  | .script s, .queries => s.queries.map .query
  | .query q, slot => q.held slot
  | .commonTable t, .query => [.query t.query]
  | .item i, slot => i.held slot
  | .source s, slot => s.held slot
  | .expression e, slot => e.held slot
  | .order o, .expression => [.expression o.expression]
  | _, _ => []

def outline : Node → Outline
  | .script s => s.outline
  | .query q => q.outline
  | .commonTable t => t.outline
  | .item i => i.outline
  | .source s => s.outline
  | .table t => t.outline
  | .expression e => e.outline
  | .column c => c.outline
  | .order o => o.outline

/-- A node stands above what its slots hold, in their order. -/
theorem outline_eq (node : Node) :
    node.outline = .node node (Slot.all.flatMap fun slot => (node.held slot).map outline) := by
  cases node with
  | script s => simp [outline, Script.outline, Slot.all, held, Function.comp_def]
  | query q =>
      cases q
      simp [outline, Query.outline, Slot.all, held, Query.held, Function.comp_def]
  | item i => cases i <;> rfl
  | source s =>
      cases s with
      | joined | function =>
          simp [outline, TableSource.outline, Slot.all, held, TableSource.held, Function.comp_def]
      | _ => rfl
  | expression e =>
      cases e with
      | function _ _ _ window =>
          cases window <;>
            simp [outline, Expression.outline, Slot.all, held, Expression.held, Function.comp_def]
      | case | cast | inList | like =>
          simp [outline, Expression.outline, Slot.all, held, Expression.held, Function.comp_def,
            List.map_flatMap]
      | _ => rfl
  | commonTable t => cases t; rfl
  | order o => cases o; rfl
  | table | column => rfl

end Node

end QueryNames
