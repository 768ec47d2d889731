import QueryNames.Proofs.Mention

/-!
Marks: what is taken from a tree, in the order of a visit, and nothing else of it. Main statements:
the names of a script and its stars are those of its marks, and the marks of a query are those of
its common tables, of its own clauses and of what a set operation joins to it.
-/

namespace QueryNames

inductive Mark where
  | table (name : String)
  | field (name : String)
  | star
  deriving DecidableEq, Repr

namespace Mark

def table? : Mark → Option String
  | .table name => some name
  | _ => none

def field? : Mark → Option String
  | .field name => some name
  | _ => none

def tables (marks : List Mark) : List String := marks.filterMap table?

def fields (marks : List Mark) : List String := marks.filterMap field?

def stars (marks : List Mark) : Bool := marks.any (· == .star)

@[simp] theorem tables_append (a b : List Mark) : tables (a ++ b) = tables a ++ tables b :=
  List.filterMap_append

@[simp] theorem fields_append (a b : List Mark) : fields (a ++ b) = fields a ++ fields b :=
  List.filterMap_append

@[simp] theorem stars_append (a b : List Mark) : stars (a ++ b) = (stars a || stars b) :=
  List.any_append

theorem stars_flatMap (marks : α → List Mark) (as : List α) :
    stars (as.flatMap marks) = as.any fun a => stars (marks a) := by
  induction as with
  | nil => rfl
  | cons a as ih => rw [List.flatMap_cons, stars_append, ih, List.any_cons]

@[simp] theorem tables_fields (names : List String) : tables (names.map .field) = [] := by
  induction names with
  | nil => rfl
  | cons name names ih => exact ih

@[simp] theorem fields_fields (names : List String) : fields (names.map .field) = names := by
  induction names with
  | nil => rfl
  | cons name names ih => exact congrArg (name :: ·) ih

@[simp] theorem stars_fields (names : List String) : stars (names.map .field) = false := by
  induction names with
  | nil => rfl
  | cons name names ih => exact ih

end Mark

def Node.marks : Node → List Mark
  | .table t => [.table t.name.base.value]
  | .column { name := some name, .. } => name.values.map .field
  | .item (.wildcard _) => [.star]
  | .item (.qualifiedWildcard _) => [.star]
  | _ => []

theorem Node.tables_marks (node : Node) :
    Mark.tables node.marks = Mention.values .table node.mentions := by
  cases node with
  | column column =>
      rcases column with ⟨_ | name, kind, location⟩
      · rfl
      · simp [marks, mentions]
  | item item => cases item <;> rfl
  | _ => rfl

theorem Node.fields_marks (node : Node) :
    Mark.fields node.marks = Mention.values .field node.mentions := by
  cases node with
  | column column =>
      rcases column with ⟨_ | name, kind, location⟩
      · rfl
      · simp only [marks, mentions, Mark.fields_fields, Mention.values_map]
        rfl
  | item item => cases item <;> rfl
  | _ => rfl

namespace Outline

def marks (outline : Outline) : List Mark := outline.nodes.flatMap Node.marks

@[simp] theorem marks_node (top : Node) (inside : List Outline) :
    (node top inside).marks = top.marks ++ inside.flatMap marks := by
  simp [marks, nodes, nodesOfAll_eq_flatMap, List.flatMap_assoc]
  rfl

theorem tables_marks (outline : Outline) :
    Mark.tables outline.marks = Mention.values .table outline.mentions := by
  unfold marks mentions
  induction outline.nodes with
  | nil => rfl
  | cons node nodes ih => simp [ih, Node.tables_marks]

theorem fields_marks (outline : Outline) :
    Mark.fields outline.marks = Mention.values .field outline.mentions := by
  unfold marks mentions
  induction outline.nodes with
  | nil => rfl
  | cons node nodes ih => simp [ih, Node.fields_marks]

mutual

theorem visit_wildcard (outline : Outline) (found : Bool) :
    outline.visit .wildcard found = (found || Mark.stars outline.marks) := by
  match outline with
  | .node top inside =>
    have below := visitAll_wildcard inside found
    rw [marks_node, Mark.stars_append]
    cases top with
    | item item =>
        cases item with
        | wildcard => simp [visit, Visitor.wildcard, Node.marks, Mark.stars]
        | qualifiedWildcard => simp [visit, Visitor.wildcard, Node.marks, Mark.stars]
        | expression => simpa [visit, Visitor.wildcard, Node.marks, Mark.stars] using below
    | column column =>
        rcases column with ⟨_ | name, kind, location⟩
        · exact below
        · rw [Node.marks, Mark.stars_fields]
          exact below
    | _ => exact below

theorem visitAll_wildcard (outlines : List Outline) (found : Bool) :
    visitAll .wildcard outlines found = (found || Mark.stars (outlines.flatMap marks)) := by
  match outlines with
  | [] => simp [visitAll, Mark.stars]
  | outline :: outlines =>
    rw [visitAll, visitAll_wildcard, visit_wildcard, List.flatMap_cons, Mark.stars_append,
      Bool.or_assoc]

end

end Outline

namespace Script

def marks (script : Script) : List Mark := script.queries.flatMap (·.outline.marks)

theorem marks_outline (script : Script) : script.outline.marks = script.marks := by
  simp [outline, marks, Node.marks, List.flatMap_map]

theorem tableNames_eq_marks (script : Script) : script.tableNames = Mark.tables script.marks := by
  rw [tableNames_eq, ← marks_outline, Outline.tables_marks]

theorem fieldNames_eq_marks (script : Script) : script.fieldNames = Mark.fields script.marks := by
  rw [fieldNames_eq, ← marks_outline, Outline.fields_marks]

theorem selectsWildcard_eq_marks (script : Script) :
    script.selectsWildcard = Mark.stars script.marks := by
  rw [selectsWildcard, Outline.visit_wildcard, ← marks_outline, Bool.false_or]

end Script

namespace Query

/-- The marks of the tables that are named before the query. -/
def commonMarks (query : Query) : List Mark :=
  query.commonTables.flatMap (·.outline.marks)

/-- The marks of the clauses of the query. -/
def ownMarks (query : Query) : List Mark :=
  { query with commonTables := [], setOperation := none }.outline.marks

/-- The marks of what is joined to the query. -/
def joinedMarks (query : Query) : List Mark :=
  query.setOperation.toList.flatMap (·.right.outline.marks)

theorem marks_outline (query : Query) :
    query.outline.marks = query.commonMarks ++ query.ownMarks ++ query.joinedMarks := by
  obtain ⟨location, commonTables, distinct, top, items, into, sources, condition, groupBy, having,
    orderBy, setOperation⟩ := query
  simp [outline, commonMarks, ownMarks, joinedMarks, Node.marks, List.flatMap_map]

end Query

end QueryNames
