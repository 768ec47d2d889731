import QueryNames.Proofs.Built.Query

/-!
How deep trees go. Main statement: no query that is found in a text goes down further than the
grammar has levels.
-/

namespace QueryNames

/-! How many levels a tree goes down below its top. A step down is one into a query or a source
inside of another, or one into an expression that stands in parentheses, behind a sign or `NOT`, in
a list or in a clause. The operands of other operators, the quantity of `TOP`, the star of
`COUNT(*)` and what a set operation joins are no steps down. -/

mutual

def Expression.nesting : Expression → Nat
  | .column _ | .literal _ | .variable _ | .niladic _ => 0
  | .unary _ operand => operand.nesting + 1
  | .binary _ left right => max left.nesting right.nesting
  | .function _ arguments _ window =>
      max (Expression.nestingOfArguments arguments) (Window.nesting? window)
  | .case operand branches otherwise =>
      max (Expression.nesting? operand)
        (max (WhenBranch.nestingOfAll branches) (Expression.nesting? otherwise))
  | .cast operand _ style => max (operand.nesting + 1) (Expression.nesting? style)
  | .subquery query | .exists query => query.nesting + 1
  | .inList operand list _ => max operand.nesting (Expression.nestingOfAll list)
  | .inSubquery operand query _ => max operand.nesting (query.nesting + 1)
  | .between operand low high _ => max operand.nesting (max low.nesting high.nesting)
  | .like operand pattern escape _ =>
      max operand.nesting (max pattern.nesting (Expression.nestingHere? escape))
  | .isNull operand _ => operand.nesting
  | .nested inner => inner.nesting + 1

/-- Down into the expressions of a list. -/
def Expression.nestingOfAll : List Expression → Nat
  | [] => 0
  | e :: es => max (e.nesting + 1) (Expression.nestingOfAll es)

def Expression.nestingOfArguments : List Expression → Nat
  | [] => 0
  | e :: es => max (if e.isStar then 0 else e.nesting + 1) (Expression.nestingOfArguments es)

def Expression.nesting? : Option Expression → Nat
  | none => 0
  | some e => e.nesting + 1

/-- Without a step down. -/
def Expression.nestingHere? : Option Expression → Nat
  | none => 0
  | some e => e.nesting

def WhenBranch.nestingOfAll : List WhenBranch → Nat
  | [] => 0
  | ⟨condition, result⟩ :: branches =>
      max (max (condition.nesting + 1) (result.nesting + 1)) (WhenBranch.nestingOfAll branches)

def OrderItem.nestingOfAll : List OrderItem → Nat
  | [] => 0
  | ⟨e, _⟩ :: items => max (e.nesting + 1) (OrderItem.nestingOfAll items)

def Window.nesting? : Option Window → Nat
  | none => 0
  | some ⟨partitionBy, orderBy⟩ =>
      max (Expression.nestingOfAll partitionBy) (OrderItem.nestingOfAll orderBy)

def TableSource.nesting : TableSource → Nat
  | .named _ | .variable _ _ => 0
  | .joined left right _ condition =>
      max left.nesting (max right.nesting (Expression.nesting? condition))
  | .derived query _ _ => query.nesting + 1
  | .function _ arguments _ => Expression.nestingOfArguments arguments
  | .parenthesized inner => inner.nesting + 1

def TableSource.nestingOfAll : List TableSource → Nat
  | [] => 0
  | source :: sources => max source.nesting (TableSource.nestingOfAll sources)

def SelectItem.nesting : SelectItem → Nat
  | .wildcard _ | .qualifiedWildcard _ => 0
  | .expression e _ => e.nesting + 1

def SelectItem.nestingOfAll : List SelectItem → Nat
  | [] => 0
  | item :: items => max item.nesting (SelectItem.nestingOfAll items)

def CommonTable.nestingOfAll : List CommonTable → Nat
  | [] => 0
  | ⟨_, _, query⟩ :: tables => max (query.nesting + 1) (CommonTable.nestingOfAll tables)

def Top.nesting? : Option Top → Nat
  | none => 0
  | some ⟨quantity, _, _⟩ => quantity.nesting

def SetOperation.nesting? : Option SetOperation → Nat
  | none => 0
  | some ⟨_, right⟩ => right.nesting

def Query.nesting : Query → Nat
  | ⟨_, commonTables, _, top, items, _, sources, condition, groupBy, having, orderBy,
      setOperation⟩ =>
    max (CommonTable.nestingOfAll commonTables) (max (Top.nesting? top)
      (max (SelectItem.nestingOfAll items) (max (TableSource.nestingOfAll sources)
        (max (Expression.nesting? condition) (max (Expression.nestingOfAll groupBy)
          (max (Expression.nesting? having) (max (OrderItem.nestingOfAll orderBy)
            (SetOperation.nesting? setOperation))))))))

end

/-! Bounds. -/

section Bounds

variable {n : Nat}

@[simp] theorem Expression.nestingOfAll_le {es : List Expression} :
    nestingOfAll es ≤ n ↔ ∀ e ∈ es, e.nesting < n := by
  induction es with
  | nil => simp [nestingOfAll]
  | cons e es ih =>
      rw [nestingOfAll, Nat.max_le, Nat.succ_le_iff, ih, List.forall_mem_cons]

@[simp] theorem Expression.nestingOfArguments_le {es : List Expression} :
    nestingOfArguments es ≤ n ↔ ∀ e ∈ es, e.isStar = false → e.nesting < n := by
  induction es with
  | nil => simp [nestingOfArguments]
  | cons e es ih =>
      rw [nestingOfArguments, Nat.max_le, ih, List.forall_mem_cons]
      refine and_congr ?_ Iff.rfl
      cases star : e.isStar with
      | true => simp
      | false => exact Nat.succ_le_iff.trans ⟨fun below _ => below, fun below => below rfl⟩

@[simp] theorem Expression.nesting?_le {e? : Option Expression} :
    nesting? e? ≤ n ↔ ∀ e ∈ e?, e.nesting < n := by
  cases e? with
  | none => simp [nesting?]
  | some e => simp only [nesting?, Nat.succ_le_iff, Option.mem_some_iff, forall_eq']

@[simp] theorem Expression.nestingHere?_le {e? : Option Expression} :
    nestingHere? e? ≤ n ↔ ∀ e ∈ e?, e.nesting ≤ n := by
  cases e? <;> simp [nestingHere?]

@[simp] theorem WhenBranch.nestingOfAll_le {branches : List WhenBranch} :
    nestingOfAll branches ≤ n ↔
      ∀ branch ∈ branches, branch.condition.nesting < n ∧ branch.result.nesting < n := by
  induction branches with
  | nil => simp [nestingOfAll]
  | cons branch branches ih =>
      obtain ⟨condition, result⟩ := branch
      rw [nestingOfAll, Nat.max_le, Nat.max_le, Nat.succ_le_iff, Nat.succ_le_iff, ih,
        List.forall_mem_cons]

@[simp] theorem OrderItem.nestingOfAll_le {items : List OrderItem} :
    nestingOfAll items ≤ n ↔ ∀ item ∈ items, item.expression.nesting < n := by
  induction items with
  | nil => simp [nestingOfAll]
  | cons item items ih =>
      obtain ⟨e, ascending⟩ := item
      rw [nestingOfAll, Nat.max_le, Nat.succ_le_iff, ih, List.forall_mem_cons]

@[simp] theorem Window.nesting?_le {window : Option Window} :
    nesting? window ≤ n ↔ ∀ w ∈ window, (∀ e ∈ w.partitionBy, e.nesting < n) ∧
      ∀ item ∈ w.orderBy, item.expression.nesting < n := by
  rcases window with _ | ⟨partitionBy, orderBy⟩
  · simp [nesting?]
  · simp only [nesting?, Nat.max_le, Expression.nestingOfAll_le, OrderItem.nestingOfAll_le,
      Option.mem_some_iff, forall_eq']

@[simp] theorem TableSource.nestingOfAll_le {sources : List TableSource} :
    nestingOfAll sources ≤ n ↔ ∀ source ∈ sources, source.nesting ≤ n := by
  induction sources with
  | nil => simp [nestingOfAll]
  | cons source sources ih => rw [nestingOfAll, Nat.max_le, ih, List.forall_mem_cons]

@[simp] theorem SelectItem.nestingOfAll_le {items : List SelectItem} :
    nestingOfAll items ≤ n ↔ ∀ item ∈ items, item.nesting ≤ n := by
  induction items with
  | nil => simp [nestingOfAll]
  | cons item items ih => rw [nestingOfAll, Nat.max_le, ih, List.forall_mem_cons]

@[simp] theorem CommonTable.nestingOfAll_le {tables : List CommonTable} :
    nestingOfAll tables ≤ n ↔ ∀ table ∈ tables, table.query.nesting < n := by
  induction tables with
  | nil => simp [nestingOfAll]
  | cons table tables ih =>
      obtain ⟨name, columns, query⟩ := table
      rw [nestingOfAll, Nat.max_le, Nat.succ_le_iff, ih, List.forall_mem_cons]

@[simp] theorem Top.nesting?_le {top : Option Top} :
    nesting? top ≤ n ↔ ∀ t ∈ top, t.quantity.nesting ≤ n := by
  rcases top with _ | ⟨quantity, percent, withTies⟩ <;> simp [nesting?]

@[simp] theorem SetOperation.nesting?_le {operation : Option SetOperation} :
    nesting? operation ≤ n ↔ ∀ o ∈ operation, o.right.nesting ≤ n := by
  rcases operation with _ | ⟨operator, right⟩ <;> simp [nesting?]

/-- Each clause of a query by itself. -/
theorem Query.nesting_le {query : Query} :
    query.nesting ≤ n ↔
      (∀ table ∈ query.commonTables, table.query.nesting < n) ∧
      (∀ t ∈ query.top, t.quantity.nesting ≤ n) ∧
      (∀ item ∈ query.items, item.nesting ≤ n) ∧
      (∀ source ∈ query.sources, source.nesting ≤ n) ∧
      (∀ e ∈ query.condition, e.nesting < n) ∧
      (∀ e ∈ query.groupBy, e.nesting < n) ∧
      (∀ e ∈ query.having, e.nesting < n) ∧
      (∀ item ∈ query.orderBy, item.expression.nesting < n) ∧
      ∀ o ∈ query.setOperation, o.right.nesting ≤ n := by
  obtain ⟨_, commonTables, _, top, items, _, sources, condition, groupBy, having, orderBy,
    setOperation⟩ := query
  simp only [nesting, Nat.max_le, CommonTable.nestingOfAll_le, Top.nesting?_le,
    SelectItem.nestingOfAll_le, TableSource.nestingOfAll_le, Expression.nesting?_le,
    Expression.nestingOfAll_le, OrderItem.nestingOfAll_le, SetOperation.nesting?_le]

end Bounds

namespace Grammar

def Tree.nesting : Tree → Nat
  | .expression e => e.nesting
  | .item i => i.nesting
  | .source s => s.nesting
  | .query q => q.nesting

/-- The top of a tree takes one of the levels that it is built with. -/
theorem Built.nesting_lt {reads : Identifier → Prop} {n : Nat} {tree : Tree}
    (built : Built reads n tree) : tree.nesting < n := by
  induction built with
  | column | literal | «variable» | niladic | wildcard | qualifiedWildcard | table
  | tableVariable => exact Nat.succ_pos _
  | unary _ ih | subquery _ ih | «exists» _ ih | nested _ ih | item _ _ ih | derived _ _ ih
  | parenthesized _ ih => exact Nat.succ_lt_succ ih
  | isNull _ ih => exact ih
  | binary _ _ first second => exact Nat.max_lt.2 ⟨first, second⟩
  | function names _ _ _ arguments partitionBy orderBy =>
      simp only [Tree.nesting, Expression.nesting, Nat.lt_succ_iff, Nat.max_le,
        Expression.nestingOfArguments_le, Window.nesting?_le]
      exact ⟨arguments, fun w is => ⟨partitionBy w is, orderBy w is⟩⟩
  | case _ _ _ _ subject conditions results last =>
      simp only [Tree.nesting, Expression.nesting, Nat.lt_succ_iff, Nat.max_le,
        Expression.nesting?_le, WhenBranch.nestingOfAll_le]
      exact ⟨subject, fun branch is => ⟨conditions branch is, results branch is⟩, last⟩
  | cast _ _ operand styles =>
      simp only [Tree.nesting, Expression.nesting, Nat.lt_succ_iff, Nat.max_le, Nat.succ_le_iff,
        Expression.nesting?_le]
      exact ⟨operand, styles⟩
  | inList _ _ operand elements =>
      simp only [Tree.nesting, Expression.nesting, Nat.lt_succ_iff, Nat.max_le,
        Expression.nestingOfAll_le]
      exact ⟨Nat.lt_succ_iff.1 operand, elements⟩
  | inSubquery _ _ operand inside => exact Nat.max_lt.2 ⟨operand, Nat.succ_lt_succ inside⟩
  | between _ _ _ operand lower upper =>
      exact Nat.max_lt.2 ⟨operand, Nat.max_lt.2 ⟨lower, upper⟩⟩
  | @like n _ _ _ _ _ _ _ operand like escapes =>
      cases n with
      | zero => exact absurd operand (Nat.not_lt_zero _)
      | succ n =>
          simp only [Tree.nesting, Expression.nesting, Nat.lt_succ_iff, Nat.max_le,
            Expression.nestingHere?_le] at operand like escapes ⊢
          exact ⟨operand, like, escapes⟩
  | tableFunction names _ arguments =>
      simp only [Tree.nesting, TableSource.nesting, Nat.lt_succ_iff,
        Expression.nestingOfArguments_le]
      exact arguments
  | joined _ _ _ first second on =>
      simp only [Tree.nesting, TableSource.nesting, Nat.lt_succ_iff, Nat.max_le,
        Expression.nesting?_le]
      exact ⟨Nat.lt_succ_iff.1 first, Nat.lt_succ_iff.1 second, on⟩
  | select noTables alone _ _ _ _ _ _ _ _ top items sources condition groupBy having orderBy =>
      apply Nat.lt_succ_of_le
      apply Query.nesting_le.2
      rw [noTables, alone]
      exact ⟨List.forall_mem_nil _, fun t is => Nat.le_of_lt_succ (top t is),
        fun item is => Nat.le_of_lt_succ (items item is),
        fun source is => Nat.le_of_lt_succ (sources source is), condition, groupBy, having, orderBy,
        nofun⟩
  | withTables _ _ _ inside behind =>
      have others := Query.nesting_le.1 (Nat.le_of_lt_succ behind)
      apply Nat.lt_succ_of_le
      apply Query.nesting_le.2
      exact ⟨inside, others.2⟩
  | @chained n _ _ _ _ _ first second =>
      cases n with
      | zero => exact absurd first (Nat.not_lt_zero _)
      | succ n =>
          obtain ⟨tables, top, items, sources, condition, groupBy, having, orderBy, -⟩ :=
            Query.nesting_le.1 (Nat.le_of_lt_succ first)
          apply Nat.lt_succ_of_le
          apply Query.nesting_le.2
          refine ⟨tables, top, items, sources, condition, groupBy, having, orderBy, ?_⟩
          rintro _ ⟨⟩
          exact Nat.le_of_lt_succ second

end Grammar

/-- Of the query itself and all that it goes down into, no more levels stand in each other than the
grammar has. -/
theorem ParseResult.nesting_ofText (text : String) :
    ∀ query ∈ (ofText text).script.queries, 1 + query.nesting ≤ Grammar.nestingLimit := by
  intro query member
  have legible (t : Token) (_ : t ∈ (TokenStream.ofText text).tokens) :
      t.Legible fun _ => True := ⟨fun _ => trivial, fun _ => trivial⟩
  have built := built_ofTokens legible query member
  have below : query.nesting < Grammar.nestingLimit := built.nesting_lt
  omega

/-- The limit is reached, here by parentheses in a select list. -/
theorem ParseResult.nesting_ofText_parentheses :
    let text := "SELECT " ++ "".pushn '(' 38 ++ "a" ++ "".pushn ')' 38
    ∃ query ∈ (ofText text).script.queries, query.nesting = 39 ∧
      1 + query.nesting ≤ Grammar.nestingLimit := by
  intro text
  have depths : (ofText text).script.queries.map Query.nesting = [39] := by decide +kernel
  have found : 39 ∈ (ofText text).script.queries.map Query.nesting := by
    rw [depths]
    exact List.mem_singleton_self 39
  obtain ⟨query, member, depth⟩ := List.mem_map.1 found
  exact ⟨query, member, depth, nesting_ofText text query member⟩

end QueryNames
