import QueryNames.Proofs.Mention

/-!
How many queries, sources and expressions of a tree stand in each other. Main statements: how much
a node adds to what stands inside of it, and that the operators, joins and set operations that form
chains add nothing that is not counted among the links.
-/

namespace QueryNames

/-- Whether it compares its operands. All other operators form chains. -/
def BinaryOperator.compares : BinaryOperator → Bool
  | .eq | .notEq | .lt | .gt | .ltEq | .gtEq | .notLt | .notGt => true
  | _ => false

/-- A query, a source or an expression takes one call of whoever goes down the tree. -/
def Node.calls : Node → Nat
  | .query _ | .source _ | .expression _ => 1
  | _ => 0

/-- A node that joins what stands before it in a chain to what follows. -/
def Node.links : Node → Nat
  | .expression (.binary op _ _) => if op.compares then 0 else 1
  | .source (.joined ..) => 1
  | .query q => if q.setOperation.isSome then 1 else 0
  | _ => 0

namespace Outline

mutual

/-- The greatest weight of a path from the top down. -/
def heaviest (weight : Node → Nat) : Outline → Nat
  | .node top inside => weight top + heaviestOf weight inside

def heaviestOf (weight : Node → Nat) : List Outline → Nat
  | [] => 0
  | outline :: outlines => max (outline.heaviest weight) (heaviestOf weight outlines)

end

/-- How many queries, sources and expressions stand in each other. -/
def height (outline : Outline) : Nat := outline.heaviest Node.calls

/-- How many links of chains stand in each other. -/
def links (outline : Outline) : Nat := outline.heaviest Node.links

/-- No higher than `k`, the links of chains apart. -/
def Within (k : Nat) (outline : Outline) : Prop := outline.height ≤ k + outline.links

variable {k m : Nat}

theorem heaviestOf_le {weight : Node → Nat} {outlines : List Outline} :
    heaviestOf weight outlines ≤ k ↔ ∀ outline ∈ outlines, outline.heaviest weight ≤ k := by
  induction outlines with
  | nil => simp [heaviestOf]
  | cons outline outlines ih => rw [heaviestOf, Nat.max_le, ih, List.forall_mem_cons]

/-- A tree is higher than what stands inside of it, by the call that its top takes. -/
theorem height_add_calls_le (top : Node) {inside : List Outline} {outline : Outline}
    (member : outline ∈ inside) : outline.height + top.calls ≤ (node top inside).height := by
  have below := heaviestOf_le.1 (Nat.le_refl (heaviestOf Node.calls inside)) outline member
  simp only [height, heaviest] at below ⊢
  omega

theorem Within.mono {outline : Outline} (within : outline.Within k) (le : k ≤ m) :
    outline.Within m :=
  Nat.le_trans within (Nat.add_le_add_right le _)

/-- A node adds what it does not link. -/
theorem within_node {top : Node} {inside : List Outline} (adds : top.calls ≤ m + top.links)
    (within : ∀ outline ∈ inside, outline.Within k) : (node top inside).Within (m + k) := by
  have bound : heaviestOf Node.calls inside ≤ k + heaviestOf Node.links inside := by
    apply heaviestOf_le.2
    intro outline member
    have links := heaviestOf_le.1 (Nat.le_refl (heaviestOf Node.links inside)) outline member
    exact Nat.le_trans (within outline member) (Nat.add_le_add_left links k)
  simp only [Within, height, Outline.links, heaviest]
  omega

theorem calls_le_one (top : Node) : top.calls ≤ 1 := by
  cases top <;> simp [Node.calls]

/-- Any node adds one at most. -/
theorem within_inside {top : Node} {inside : List Outline}
    (within : ∀ outline ∈ inside, outline.Within k) : (node top inside).Within (k + 1) := by
  have adds : top.calls ≤ 1 + top.links := Nat.le_trans (calls_le_one top) (Nat.le_add_right _ _)
  exact Nat.add_comm 1 k ▸ within_node adds within

/-- A link adds nothing, and neither does what takes no call. -/
theorem within_same {top : Node} {inside : List Outline} (adds : top.calls ≤ top.links)
    (within : ∀ outline ∈ inside, outline.Within k) : (node top inside).Within k := by
  rw [← Nat.zero_add k] at within ⊢
  exact within_node (by omega) (by simpa using within)

end Outline

namespace Query

/-- The clauses of the query itself. -/
def clauses (query : Query) : List Outline :=
  Top.outlines? query.top ++ SelectItem.outlines query.items ++
    TableSource.outlines query.sources ++ Expression.outlines? query.condition ++
    Expression.outlines query.groupBy ++ Expression.outlines? query.having ++
    OrderItem.outlines query.orderBy

/-- What stands inside of a query is within `k`. A query that is joined to it may be higher by one,
the query that it is joined to being a link. -/
structure Within (k : Nat) (query : Query) : Prop where
  tables : ∀ table ∈ query.commonTables, table.query.outline.Within k
  clauses : ∀ outline ∈ query.clauses, outline.Within k
  joined : ∀ operation ∈ query.setOperation, operation.right.outline.Within (k + 1)

variable {k m : Nat} {query : Query}

theorem Within.mono (within : query.Within k) (le : k ≤ m) : query.Within m where
  tables table member := (within.tables table member).mono le
  clauses outline member := (within.clauses outline member).mono le
  joined operation member := (within.joined operation member).mono (Nat.succ_le_succ le)

theorem outline_eq (query : Query) :
    query.outline = .node (.query query)
      (CommonTable.outlines query.commonTables ++ query.clauses ++
        SetOperation.outlines? query.setOperation) := by
  cases query
  simp [Query.outline, Query.clauses]

theorem height_condition {e : Expression} (is : query.condition = some e) :
    e.outline.height < query.outline.height := by
  have member : e.outline ∈ CommonTable.outlines query.commonTables ++ query.clauses ++
      SetOperation.outlines? query.setOperation := by
    simp [Query.clauses, is]
  rw [outline_eq]
  exact Outline.height_add_calls_le (.query query) member

theorem within_tables (tables : ∀ table ∈ query.commonTables, table.query.outline.Within k) :
    ∀ outline ∈ CommonTable.outlines query.commonTables, outline.Within k := by
  rw [CommonTable.outlines_eq_map, List.forall_mem_map]
  rintro ⟨name, columns, inner⟩ member
  apply Outline.within_same (Nat.zero_le _)
  exact List.forall_mem_singleton.2 (tables ⟨name, columns, inner⟩ member)

theorem Within.outline (within : query.Within k) : query.outline.Within (k + 1) := by
  have inside := List.forall_mem_append.2 ⟨within_tables within.tables, within.clauses⟩
  rw [outline_eq]
  cases operation : query.setOperation with
  | none =>
      apply Outline.within_inside
      simpa [SetOperation.outlines?] using inside
  | some joined =>
      apply Outline.within_same
      · simp [Node.calls, Node.links, operation]
      · rw [List.forall_mem_append, SetOperation.outlines?_eq_map, List.forall_mem_map]
        refine ⟨fun outline member => (inside outline member).mono (Nat.le_succ k), ?_⟩
        exact List.forall_mem_singleton.2 (within.joined joined operation)

end Query

end QueryNames
