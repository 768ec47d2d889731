import QueryNames.Extraction

/-!
Mentions: the identifiers by which a tree names tables and columns, in the order of a visit. Main
statements: the names of a script are the values of its mentions.
-/

namespace QueryNames

@[simp] theorem QualifiedName.base_mem_parts (name : QualifiedName) : name.base ∈ name.parts := by
  rw [base_eq_getLast]
  exact List.getLast_mem _

/-- What an identifier names. -/
inductive Role where
  | table
  | field
  deriving DecidableEq

structure Mention where
  role : Role
  identifier : Identifier

/-- A table is named by its last part only, a column by all its parts. -/
def Node.mentions : Node → List Mention
  | .table t => [⟨.table, t.name.base⟩]
  | .column { name := some name, .. } => name.parts.map (⟨.field, ·⟩)
  | _ => []

def Mention.values (role : Role) (mentions : List Mention) : List String :=
  (mentions.filter (·.role == role)).map (·.identifier.value)

@[simp] theorem Mention.values_nil (role : Role) : values role [] = [] := rfl

@[simp] theorem Mention.values_append (role : Role) (a b : List Mention) :
    values role (a ++ b) = values role a ++ values role b := by
  simp [values]

@[simp] theorem Mention.values_map (role : Role) (identifiers : List Identifier) :
    values role (identifiers.map (⟨role, ·⟩)) = identifiers.map (·.value) := by
  have kept : (identifiers.map (Mention.mk role)).filter (·.role == role) =
      identifiers.map (Mention.mk role) := List.filter_eq_self.2 (by simp)
  rw [values, kept, List.map_map]
  rfl

@[simp] theorem Mention.values_tables_fields (identifiers : List Identifier) :
    values .table (identifiers.map (⟨.field, ·⟩)) = [] := by
  have dropped : (identifiers.map (Mention.mk .field)).filter (·.role == .table) = [] :=
    List.filter_eq_nil_iff.2 (by simp)
  rw [values, dropped, List.map_nil]

namespace Outline

def mentions (outline : Outline) : List Mention := outline.nodes.flatMap Node.mentions

def identifiers (outline : Outline) : List Identifier := outline.mentions.map (·.identifier)

theorem nodesOfAll_eq_flatMap (outlines : List Outline) :
    nodesOfAll outlines = outlines.flatMap nodes := by
  induction outlines with
  | nil => simp [nodesOfAll]
  | cons outline outlines ih => simp [nodesOfAll, ih]

@[simp] theorem mentions_node (top : Node) (inside : List Outline) :
    (node top inside).mentions = top.mentions ++ inside.flatMap mentions := by
  simp [mentions, nodes, nodesOfAll_eq_flatMap, List.flatMap_assoc]
  rfl

@[simp] theorem identifiers_node (top : Node) (inside : List Outline) :
    (node top inside).identifiers =
      top.mentions.map (·.identifier) ++ inside.flatMap identifiers := by
  simp only [identifiers, mentions_node, List.map_append, List.map_flatMap]
  rfl

/-- A visit that adds, at each node, the values of its mentions in one role adds those of the
outline. -/
theorem visit_adding {note : Node → List String → List String} {role : Role}
    (adds : ∀ node names, note node names = names ++ Mention.values role node.mentions)
    (outline : Outline) (names : List String) :
    outline.visit (.everywhere note) names = names ++ Mention.values role outline.mentions := by
  have folded (nodes : List Node) (names : List String) :
      nodes.foldl (fun names node => note node names) names =
        names ++ Mention.values role (nodes.flatMap Node.mentions) := by
    induction nodes generalizing names with
    | nil => simp [Mention.values]
    | cons node nodes ih => rw [List.foldl_cons, ih, adds]; simp
  rw [visit_everywhere, folded]
  rfl

theorem visit_tableNames (outline : Outline) (names : List String) :
    outline.visit .tableNames names = names ++ Mention.values .table outline.mentions := by
  apply visit_adding
  intro node names
  cases node with
  | table table => rfl
  | column column =>
      rcases column with ⟨_ | name, kind, location⟩ <;> simp [Node.mentions, Mention.values]
  | _ => simp [Node.mentions, Mention.values]

theorem visit_fieldNames (outline : Outline) (names : List String) :
    outline.visit .fieldNames names = names ++ Mention.values .field outline.mentions := by
  apply visit_adding
  intro node names
  cases node with
  | column column =>
      rcases column with ⟨_ | name, kind, location⟩
      · simp [Node.mentions, Mention.values]
      · simp [Node.mentions, QualifiedName.values]
  | _ => simp [Node.mentions, Mention.values]

end Outline

theorem Script.tableNames_eq (script : Script) :
    script.tableNames = Mention.values .table script.outline.mentions :=
  script.outline.visit_tableNames []

theorem Script.fieldNames_eq (script : Script) :
    script.fieldNames = Mention.values .field script.outline.mentions :=
  script.outline.visit_fieldNames []

/-! Lists and options of trees in an outline. -/

@[simp] theorem Expression.outlines_eq_map (es : List Expression) :
    Expression.outlines es = es.map Expression.outline := by
  induction es with
  | nil => rfl
  | cons e es ih => simp [Expression.outlines, ih]

@[simp] theorem Expression.outlines?_eq_map (e? : Option Expression) :
    Expression.outlines? e? = e?.toList.map Expression.outline := by
  cases e? <;> rfl

@[simp] theorem OrderItem.outlines_eq_map (items : List OrderItem) :
    OrderItem.outlines items = items.map OrderItem.outline := by
  induction items with
  | nil => rfl
  | cons item items ih => simp [OrderItem.outlines, ih]

@[simp] theorem TableSource.outlines_eq_map (sources : List TableSource) :
    TableSource.outlines sources = sources.map TableSource.outline := by
  induction sources with
  | nil => rfl
  | cons source sources ih => simp [TableSource.outlines, ih]

@[simp] theorem SelectItem.outlines_eq_map (items : List SelectItem) :
    SelectItem.outlines items = items.map SelectItem.outline := by
  induction items with
  | nil => rfl
  | cons item items ih => simp [SelectItem.outlines, ih]

@[simp] theorem CommonTable.outlines_eq_map (tables : List CommonTable) :
    CommonTable.outlines tables = tables.map CommonTable.outline := by
  induction tables with
  | nil => rfl
  | cons table tables ih => simp [CommonTable.outlines, ih]

@[simp] theorem WhenBranch.outlines_eq_flatMap (branches : List WhenBranch) :
    WhenBranch.outlines branches =
      branches.flatMap fun branch => [branch.condition.outline, branch.result.outline] := by
  induction branches with
  | nil => rfl
  | cons branch branches ih =>
      obtain ⟨condition, result⟩ := branch
      simp [WhenBranch.outlines, ih]

@[simp] theorem Top.outlines?_eq_map (top? : Option Top) :
    Top.outlines? top? = top?.toList.map (·.quantity.outline) := by
  rcases top? with _ | ⟨_, _, _⟩ <;> rfl

@[simp] theorem Window.outlines?_eq_flatMap (window? : Option Window) :
    Window.outlines? window? = window?.toList.flatMap fun window =>
      window.partitionBy.map Expression.outline ++ window.orderBy.map OrderItem.outline := by
  rcases window? with _ | ⟨_, _⟩ <;> simp [Window.outlines?]

@[simp] theorem SetOperation.outlines?_eq_map (operation? : Option SetOperation) :
    SetOperation.outlines? operation? = operation?.toList.map (·.right.outline) := by
  rcases operation? with _ | ⟨_, _⟩ <;> rfl

end QueryNames
