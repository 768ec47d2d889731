import QueryNames.Proofs.Mark
import QueryNames.Proofs.Rendition.Text

/-!
Outlines of renditions. Main statement: the marks of a rendition of a script are the renditions of
its marks, so that it has the same names but for letter case, and the same stars.
-/

namespace QueryNames

def Node.render (f : Rendition) : Node → Node
  | .script s => .script (Renderable.render f s)
  | .query q => .query (q.render f)
  | .commonTable t => .commonTable (t.render f)
  | .item i => .item (i.render f)
  | .source s => .source (s.render f)
  | .table t => .table (Renderable.render f t)
  | .expression e => .expression (e.render f)
  | .column c => .column (Renderable.render f c)
  | .order i => .order (i.render f)

mutual

def Outline.render (f : Rendition) : Outline → Outline
  | .node top inside => .node (top.render f) (Outline.renderAll f inside)

def Outline.renderAll (f : Rendition) : List Outline → List Outline
  | [] => []
  | outline :: outlines => outline.render f :: Outline.renderAll f outlines

end

variable (f : Rendition)

theorem Outline.renderAll_eq_map (outlines : List Outline) :
    Outline.renderAll f outlines = outlines.map (Outline.render f) := by
  induction outlines with
  | nil => rfl
  | cons outline outlines ih => exact congrArg (outline.render f :: ·) ih

theorem Outline.renderAll_append (a b : List Outline) :
    Outline.renderAll f (a ++ b) = Outline.renderAll f a ++ Outline.renderAll f b := by
  rw [renderAll_eq_map, renderAll_eq_map, renderAll_eq_map, List.map_append]

/-! Each tree has the outline of its rendition: one case for each constructor, from the outlines of
the trees inside. -/

mutual

theorem Expression.outline_render (e : Expression) :
    (e.render f).outline = e.outline.render f := by
  match e with
  | .column _ | .literal _ | .variable _ | .niladic _ => rfl
  | .unary _ operand =>
    simp only [Expression.render, Expression.outline, operand.outline_render]
    rfl
  | .binary _ left right =>
    simp only [Expression.render, Expression.outline, left.outline_render, right.outline_render]
    rfl
  | .function _ arguments _ window =>
    simp only [Expression.render, Expression.outline, Outline.render, Outline.renderAll_append,
      Expression.outlines_render arguments, Window.outlines?_render window]
    rfl
  | .case operand branches otherwise =>
    simp only [Expression.render, Expression.outline, Outline.render, Outline.renderAll_append,
      Expression.outlines?_render operand, WhenBranch.outlines_render branches,
      Expression.outlines?_render otherwise]
    rfl
  | .cast operand _ style =>
    simp only [Expression.render, Expression.outline, operand.outline_render,
      Expression.outlines?_render style]
    rfl
  | .subquery query | .exists query =>
    simp only [Expression.render, Expression.outline, query.outline_render]
    rfl
  | .inList operand list _ =>
    simp only [Expression.render, Expression.outline, operand.outline_render,
      Expression.outlines_render list]
    rfl
  | .inSubquery operand query _ =>
    simp only [Expression.render, Expression.outline, operand.outline_render, query.outline_render]
    rfl
  | .between operand low high _ =>
    simp only [Expression.render, Expression.outline, operand.outline_render, low.outline_render,
      high.outline_render]
    rfl
  | .like operand pattern escape _ =>
    simp only [Expression.render, Expression.outline, operand.outline_render,
      pattern.outline_render, Expression.outlines?_render escape]
    rfl
  | .isNull operand _ =>
    simp only [Expression.render, Expression.outline, operand.outline_render]
    rfl
  | .nested inner =>
    simp only [Expression.render, Expression.outline, inner.outline_render]
    rfl

theorem Expression.outlines_render (es : List Expression) :
    Expression.outlines (Expression.renderAll f es) =
      Outline.renderAll f (Expression.outlines es) := by
  match es with
  | [] => rfl
  | e :: es =>
    simp only [Expression.renderAll, Expression.outlines, e.outline_render,
      Expression.outlines_render es]
    rfl

theorem Expression.outlines?_render (e? : Option Expression) :
    Expression.outlines? (Expression.render? f e?) =
      Outline.renderAll f (Expression.outlines? e?) := by
  match e? with
  | none => rfl
  | some e =>
    simp only [Expression.render?, Expression.outlines?, e.outline_render]
    rfl

theorem WhenBranch.outlines_render (branches : List WhenBranch) :
    WhenBranch.outlines (WhenBranch.renderAll f branches) =
      Outline.renderAll f (WhenBranch.outlines branches) := by
  match branches with
  | [] => rfl
  | ⟨condition, result⟩ :: branches =>
    simp only [WhenBranch.renderAll, WhenBranch.render, WhenBranch.outlines,
      condition.outline_render, result.outline_render, WhenBranch.outlines_render branches]
    rfl

theorem OrderItem.outline_render (item : OrderItem) :
    (item.render f).outline = item.outline.render f := by
  match item with
  | ⟨e, _⟩ =>
    simp only [OrderItem.render, OrderItem.outline, e.outline_render]
    rfl

theorem OrderItem.outlines_render (items : List OrderItem) :
    OrderItem.outlines (OrderItem.renderAll f items) =
      Outline.renderAll f (OrderItem.outlines items) := by
  match items with
  | [] => rfl
  | item :: items =>
    simp only [OrderItem.renderAll, OrderItem.outlines, item.outline_render,
      OrderItem.outlines_render items]
    rfl

theorem Window.outlines?_render (window? : Option Window) :
    Window.outlines? (Window.render? f window?) =
      Outline.renderAll f (Window.outlines? window?) := by
  match window? with
  | none => rfl
  | some ⟨partitionBy, orderBy⟩ =>
    simp only [Window.render?, Window.render, Window.outlines?, Outline.renderAll_append,
      Expression.outlines_render partitionBy, OrderItem.outlines_render orderBy]

theorem TableSource.outline_render (source : TableSource) :
    (source.render f).outline = source.outline.render f := by
  match source with
  | .named _ | .variable _ _ => rfl
  | .joined left right _ condition =>
    simp only [TableSource.render, TableSource.outline, left.outline_render, right.outline_render,
      Expression.outlines?_render condition]
    rfl
  | .derived query _ _ =>
    simp only [TableSource.render, TableSource.outline, query.outline_render]
    rfl
  | .function _ arguments _ =>
    simp only [TableSource.render, TableSource.outline, Expression.outlines_render arguments]
    rfl
  | .parenthesized inner =>
    simp only [TableSource.render, TableSource.outline, inner.outline_render]
    rfl

theorem TableSource.outlines_render (sources : List TableSource) :
    TableSource.outlines (TableSource.renderAll f sources) =
      Outline.renderAll f (TableSource.outlines sources) := by
  match sources with
  | [] => rfl
  | source :: sources =>
    simp only [TableSource.renderAll, TableSource.outlines, source.outline_render,
      TableSource.outlines_render sources]
    rfl

theorem SelectItem.outline_render (item : SelectItem) :
    (item.render f).outline = item.outline.render f := by
  match item with
  | .wildcard _ | .qualifiedWildcard _ => rfl
  | .expression e _ =>
    simp only [SelectItem.render, SelectItem.outline, e.outline_render]
    rfl

theorem SelectItem.outlines_render (items : List SelectItem) :
    SelectItem.outlines (SelectItem.renderAll f items) =
      Outline.renderAll f (SelectItem.outlines items) := by
  match items with
  | [] => rfl
  | item :: items =>
    simp only [SelectItem.renderAll, SelectItem.outlines, item.outline_render,
      SelectItem.outlines_render items]
    rfl

theorem Top.outlines?_render (top? : Option Top) :
    Top.outlines? (Top.render? f top?) = Outline.renderAll f (Top.outlines? top?) := by
  match top? with
  | none => rfl
  | some ⟨quantity, _, _⟩ =>
    simp only [Top.render?, Top.render, Top.outlines?, quantity.outline_render]
    rfl

theorem CommonTable.outline_render (table : CommonTable) :
    (table.render f).outline = table.outline.render f := by
  match table with
  | ⟨_, _, query⟩ =>
    simp only [CommonTable.render, CommonTable.outline, query.outline_render]
    rfl

theorem CommonTable.outlines_render (tables : List CommonTable) :
    CommonTable.outlines (CommonTable.renderAll f tables) =
      Outline.renderAll f (CommonTable.outlines tables) := by
  match tables with
  | [] => rfl
  | table :: tables =>
    simp only [CommonTable.renderAll, CommonTable.outlines, table.outline_render,
      CommonTable.outlines_render tables]
    rfl

theorem SetOperation.outlines?_render (operation? : Option SetOperation) :
    SetOperation.outlines? (SetOperation.render? f operation?) =
      Outline.renderAll f (SetOperation.outlines? operation?) := by
  match operation? with
  | none => rfl
  | some ⟨_, right⟩ =>
    simp only [SetOperation.render?, SetOperation.render, SetOperation.outlines?,
      right.outline_render]
    rfl

theorem Query.outline_render (query : Query) :
    (query.render f).outline = query.outline.render f := by
  match query with
  | ⟨_, commonTables, _, top, items, _, sources, condition, groupBy, having, orderBy,
      setOperation⟩ =>
    simp only [Query.render, Query.outline, Outline.render, Outline.renderAll_append,
      CommonTable.outlines_render commonTables, Top.outlines?_render top,
      SelectItem.outlines_render items, TableSource.outlines_render sources,
      Expression.outlines?_render condition, Expression.outlines_render groupBy,
      Expression.outlines?_render having, OrderItem.outlines_render orderBy,
      SetOperation.outlines?_render setOperation]
    rfl

end

/-! The marks of a tree are those of its outline. -/

instance : Renderable Mark where
  render f
    | .table name => .table (render f name)
    | .field name => .field (render f name)
    | .star => .star

namespace Mark

theorem tables_render (marks : List Mark) : tables (render f marks) = render f (tables marks) := by
  induction marks with
  | nil => rfl
  | cons mark marks ih =>
      cases mark with
      | table name => exact congrArg (render f name :: ·) ih
      | _ => exact ih

theorem fields_render (marks : List Mark) : fields (render f marks) = render f (fields marks) := by
  induction marks with
  | nil => rfl
  | cons mark marks ih =>
      cases mark with
      | field name => exact congrArg (render f name :: ·) ih
      | _ => exact ih

theorem stars_render (marks : List Mark) : stars (render f marks) = stars marks := by
  induction marks with
  | nil => rfl
  | cons mark marks ih =>
      cases mark with
      | star => rfl
      | _ => exact ih

end Mark

theorem QualifiedName.base_render (name : QualifiedName) :
    (Renderable.render f name).base = Renderable.render f name.base := by
  obtain ⟨first, others⟩ := name
  show (others.map (Renderable.render f)).getLastD (Renderable.render f first) =
    Renderable.render f (others.getLastD first)
  induction others generalizing first with
  | nil => rfl
  | cons part others ih =>
      rw [List.map_cons, List.getLastD_cons, List.getLastD_cons]
      exact ih part

theorem Node.marks_render (node : Node) :
    (node.render f).marks = Renderable.render f node.marks := by
  cases node with
  | table t =>
      have base := QualifiedName.base_render f t.name
      exact congrArg (fun base => [Mark.table base.value]) base
  | column c =>
      obtain ⟨_ | name, kind, place⟩ := c
      · rfl
      · show (Renderable.render f name).values.map Mark.field =
          Renderable.render f (name.values.map Mark.field)
        rw [QualifiedName.values_render, render_list, render_list, List.map_map, List.map_map]
        rfl
  | item i => cases i <;> rfl
  | _ => rfl

mutual

theorem Outline.marks_render (outline : Outline) :
    (outline.render f).marks = Renderable.render f outline.marks := by
  match outline with
  | .node top inside =>
    rw [Outline.render, marks_node, marks_node, render_append, top.marks_render,
      marks_renderAll inside]

theorem Outline.marks_renderAll (outlines : List Outline) :
    (Outline.renderAll f outlines).flatMap marks =
      Renderable.render f (outlines.flatMap marks) := by
  match outlines with
  | [] => rfl
  | outline :: outlines =>
    rw [Outline.renderAll, List.flatMap_cons, List.flatMap_cons, render_append,
      outline.marks_render, marks_renderAll outlines]

end

theorem Script.marks_render (script : Script) :
    (render f script).marks = render f script.marks := by
  obtain ⟨queries⟩ := script
  show (queries.map (Query.render f)).flatMap (·.outline.marks) =
    render f (queries.flatMap (·.outline.marks))
  induction queries with
  | nil => rfl
  | cons query queries ih =>
    rw [List.map_cons, List.flatMap_cons, List.flatMap_cons, render_append, ih,
      query.outline_render, Outline.marks_render]

end QueryNames
