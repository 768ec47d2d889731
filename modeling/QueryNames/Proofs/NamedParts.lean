import QueryNames.Proofs.Built.Query
import QueryNames.Proofs.LosslessTokens
import QueryNames.Proofs.Text.Identifier

/-!
The identifiers in a tree. Main statement: whatever a text holds, no part of a name in its tree, no
common table and no label that is no string has an empty value, so that no name that is taken from
the text is empty.
-/

namespace QueryNames

/-- All identifiers that stand in the nodes of the outline are allowed by `reads`. -/
def Outline.Names (reads : Identifier → Prop) (outline : Outline) : Prop :=
  ∀ node ∈ outline.nodes, ∀ name ∈ node.names, reads name

@[simp] theorem Outline.names_node {reads : Identifier → Prop} {top : Node}
    {inside : List Outline} :
    (node top inside).Names reads ↔
      (∀ name ∈ top.names, reads name) ∧ ∀ outline ∈ inside, outline.Names reads := by
  simp only [Names, nodes, nodesOfAll_eq_flatMap, List.forall_mem_cons, List.mem_flatMap]
  constructor
  · rintro ⟨here, below⟩
    exact ⟨here, fun outline among node member => below node ⟨outline, among, member⟩⟩
  · rintro ⟨here, below⟩
    refine ⟨here, ?_⟩
    rintro node ⟨outline, among, member⟩
    exact below outline among node member

namespace Grammar

def Tree.outline : Tree → Outline
  | .expression e => e.outline
  | .item i => i.outline
  | .source s => s.outline
  | .query q => q.outline

variable {reads : Identifier → Prop}

theorem names_of_isStar {e : Expression} (star : e.isStar = true) : e.outline.Names reads := by
  unfold Expression.isStar at star
  split at star
  · simp [Expression.outline, Column.outline, Node.names]
  · cases star

theorem names_of_arguments {list : List Expression}
    (names : ∀ e ∈ list, e.isStar = false → e.outline.Names reads) :
    ∀ e ∈ list, e.outline.Names reads := by
  intro e member
  cases star : e.isStar with
  | true => exact names_of_isStar star
  | false => exact names e member star

theorem names_order {item : OrderItem} :
    item.outline.Names reads ↔ item.expression.outline.Names reads := by
  cases item
  simp [OrderItem.outline, Node.names]

theorem names_commonTable {table : CommonTable} :
    table.outline.Names reads ↔
      (∀ name ∈ (Node.commonTable table).names, reads name) ∧
        table.query.outline.Names reads := by
  cases table
  simp [CommonTable.outline]

/-- Each clause of a query by itself. -/
theorem names_query {query : Query} :
    query.outline.Names reads ↔
      (∀ name ∈ (Node.query query).names, reads name) ∧
      (∀ table ∈ query.commonTables, table.outline.Names reads) ∧
      (∀ t ∈ query.top, t.quantity.outline.Names reads) ∧
      (∀ item ∈ query.items, item.outline.Names reads) ∧
      (∀ source ∈ query.sources, source.outline.Names reads) ∧
      (∀ e ∈ query.condition, e.outline.Names reads) ∧
      (∀ e ∈ query.groupBy, e.outline.Names reads) ∧
      (∀ e ∈ query.having, e.outline.Names reads) ∧
      (∀ item ∈ query.orderBy, item.outline.Names reads) ∧
      ∀ o ∈ query.setOperation, o.right.outline.Names reads := by
  cases query
  simp [Query.outline, or_imp, forall_and]

/-- All identifiers in a tree are among those that it was built of. -/
theorem Built.names {n : Nat} {tree : Tree} (built : Built reads n tree) :
    tree.outline.Names reads := by
  induction built with
  | column names | qualifiedWildcard names | table names | tableVariable names =>
      simpa [Tree.outline, Expression.outline, SelectItem.outline, TableSource.outline,
        Column.outline, NamedTable.outline, Node.names] using names
  | literal | «variable» | niladic | wildcard =>
      simp [Tree.outline, Expression.outline, SelectItem.outline, Node.names]
  | unary _ ih | subquery _ ih | «exists» _ ih | nested _ ih | isNull _ ih | parenthesized _ ih =>
      simpa [Tree.outline, Expression.outline, TableSource.outline, Node.names] using ih
  | item names _ ih | derived names _ ih =>
      simpa [Tree.outline, SelectItem.outline, TableSource.outline] using And.intro names ih
  | binary _ _ first second | inSubquery _ _ first second =>
      simpa [Tree.outline, Expression.outline, Node.names] using And.intro first second
  | between _ _ _ operand lower upper =>
      simpa [Tree.outline, Expression.outline, Node.names] using And.intro operand ⟨lower, upper⟩
  | function names _ _ _ arguments partitionBy orderBy =>
      simp only [Tree.outline, Expression.outline, Outline.names_node, Expression.outlines_eq_map,
        Window.outlines?_eq_flatMap, List.forall_mem_append, List.forall_mem_map,
        List.forall_mem_flatMap]
      refine ⟨names, names_of_arguments arguments, fun w member => ?_⟩
      have is := Option.mem_toList.1 member
      exact ⟨partitionBy w is, fun item among => names_order.2 (orderBy w is item among)⟩
  | case _ _ _ _ subject conditions results last =>
      simp_all [Tree.outline, Expression.outline, Node.names, or_imp, forall_and]
  | cast _ _ operand styles =>
      simp_all [Tree.outline, Expression.outline, Node.names]
  | inList _ _ operand elements =>
      simp_all [Tree.outline, Expression.outline, Node.names]
  | like _ _ _ operand like escapes =>
      simp_all [Tree.outline, Expression.outline, Node.names]
  | tableFunction names _ arguments =>
      simp only [Tree.outline, TableSource.outline, Outline.names_node, Expression.outlines_eq_map,
        List.forall_mem_map]
      exact ⟨names, names_of_arguments arguments⟩
  | joined _ _ _ first second on =>
      simp_all [Tree.outline, TableSource.outline, Node.names]
  | @select _ query noTables alone names _ _ _ _ _ _ _ top items sources condition groupBy having
      orderBy =>
      have noTable : ∀ table ∈ query.commonTables, table.outline.Names reads := by
        rw [noTables]
        exact List.forall_mem_nil _
      have nothing : ∀ o ∈ query.setOperation, o.right.outline.Names reads := by
        rw [alone]
        rintro _ ⟨⟩
      exact names_query.2 ⟨names, noTable, top, items, sources, condition, groupBy, having,
        fun item member => names_order.2 (orderBy item member), nothing⟩
  | withTables names _ _ inside behind =>
      obtain ⟨into, -, others⟩ := names_query.1 behind
      exact names_query.2 ⟨into,
        fun table member => names_commonTable.2 ⟨names table member, inside table member⟩, others⟩
  | @chained _ _ right operator _ _ first second =>
      obtain ⟨into, tables, top, items, sources, condition, groupBy, having, orderBy, -⟩ :=
        names_query.1 first
      have joined : ∀ o ∈ some (SetOperation.mk operator right), o.right.outline.Names reads := by
        rintro _ ⟨⟩
        exact second
      exact names_query.2
        ⟨into, tables, top, items, sources, condition, groupBy, having, orderBy, joined⟩

end Grammar

/-- What names a table or a column is among the identifiers of its node. -/
theorem Node.identifier_of_mention {node : Node} {mention : Mention}
    (member : mention ∈ node.mentions) : mention.identifier ∈ node.names := by
  cases node with
  | table t =>
      obtain rfl := List.mem_singleton.1 member
      exact List.mem_append_left _ t.name.base_mem_parts
  | column c =>
      obtain ⟨_ | name, kind, place⟩ := c
      · cases member
      · obtain ⟨part, among, rfl⟩ := List.mem_map.1 member
        simpa [names] using among
  | _ => cases member

theorem Outline.value_of_mention {outline : Outline} {reads : Identifier → Prop}
    (names : outline.Names reads) {role : Role} {value : String}
    (member : value ∈ Mention.values role outline.mentions) :
    ∃ name, reads name ∧ name.value = value := by
  obtain ⟨mention, among, rfl⟩ := List.mem_map.1 member
  obtain ⟨node, inside, mentioned⟩ := List.mem_flatMap.1 (List.mem_filter.1 among).1
  exact ⟨mention.identifier, names node inside _ (Node.identifier_of_mention mentioned), rfl⟩

/-- Nothing in a text has an empty name to give. -/
theorem TokenStream.legible_ofText {text : String} {t : Token}
    (member : t ∈ (ofText text).tokens) : t.Legible fun name => name.value ≠ "" where
  identifier kind := value_ne_of_identifier member kind
  called kind := by
    obtain ⟨front, whole, sound⟩ := (Layout.of_chain .start true text.toList).closed
    have tokens : (ofText text).tokens = front ++ [.endOfInput (.after .start text.toList)] := whole
    rw [tokens] at member
    rcases List.mem_append.1 member with inside | stop
    · exact (sound t inside).2
    · rw [List.mem_singleton.1 stop] at kind
      rcases kind with kind | kind <;> cases kind

/-- No identifier in the tree of a text has an empty value, and no name that is taken from it is
empty. -/
theorem names_ofText_nonempty (text : String) :
    (∀ node ∈ (ParseResult.ofText text).script.outline.nodes, ∀ name ∈ node.names,
      name.value ≠ "") ∧ "" ∉ tableNames text ∧ "" ∉ fieldNames text := by
  have names : (ParseResult.ofText text).script.outline.Names fun name => name.value ≠ "" := by
    rw [Script.outline, Outline.names_node]
    refine ⟨List.forall_mem_nil _, List.forall_mem_map.2 fun query member => ?_⟩
    exact (ParseResult.built_ofTokens (fun _ => TokenStream.legible_ofText) query member).names
  refine ⟨names, fun member => ?_, fun member => ?_⟩
  · rw [tableNames, Script.tableNames_eq] at member
    obtain ⟨name, nonempty, empty⟩ := Outline.value_of_mention names member
    exact nonempty empty
  · rw [fieldNames, Script.fieldNames_eq] at member
    obtain ⟨name, nonempty, empty⟩ := Outline.value_of_mention names member
    exact nonempty empty

end QueryNames
