import QueryNames.Proofs.Built.Query
import QueryNames.Proofs.Height.Expression

/-!
How high sources, queries and scripts are. Main statement: a level of the grammar adds two to what
is found one level further inside.
-/

namespace QueryNames.Grammar.Parser

namespace LevelBounds

variable {k : Nat} {inner : Level} [inner.Stepwise] (h : LevelBounds k inner)

include h

/-! Table sources. -/

theorem derivedTable : Bounds (k + 2) TableSource.outline (Parser.derivedTable inner) := by
  apply Finds.next
  intro _
  apply Finds.bind h.query.attempt
  intro query? within
  apply Finds.next
  intro _
  apply Finds.next
  intro label
  apply Finds.next
  intro _
  apply Finds.next
  intro columns
  apply Finds.bind (.ofOption within)
  intro query inside
  exact .pure (Outline.within_inside (List.forall_mem_singleton.2 inside.outline))

theorem parenthesizedSource :
    Bounds (k + 2) TableSource.outline (Parser.parenthesizedSource inner) := by
  apply Finds.next
  intro _
  apply Finds.bind h.source.attempt
  intro source? within
  apply Finds.next
  intro _
  apply Finds.bind (.ofOption within)
  intro source inside
  exact .pure (Outline.within_inside (List.forall_mem_singleton.2 inside))

theorem namedSource : Bounds (k + 2) TableSource.outline (Parser.namedSource inner) := by
  apply Finds.next
  intro name
  apply Finds.next
  intro _
  split
  · apply Finds.bind h.arguments
    intro list within
    apply Finds.next
    intro label
    apply Finds.pure
    apply Outline.within_inside
    rw [Expression.outlines_eq_map, List.forall_mem_map]
    exact within
  · apply Finds.next
    intro label
    apply Finds.next
    intro _
    apply Finds.pure
    exact Outline.Within.mono (Outline.within_inside (List.forall_mem_singleton.2 (Nat.le_refl 0)))
      (Nat.le_add_left 1 (k + 1))

theorem table : Bounds (k + 2) TableSource.outline (Parser.table inner) := by
  apply Finds.next
  intro t
  split
  · apply Finds.next
    intro _
    split
    · exact h.derivedTable
    · exact h.parenthesizedSource
  · apply Finds.next
    intro _
    apply Finds.next
    intro label
    exact .pure (Outline.within_inside (List.forall_mem_nil _))
  · exact h.namedSource
  · exact .missing

theorem joinCondition (kind : JoinKind) :
    Finds (fun _ => True) (fun condition => ∀ e ∈ condition, e.outline.Within (k + 1))
      (Parser.joinCondition inner kind) := by
  dsimp only [Parser.joinCondition]
  split
  · exact .pure nofun
  · apply Finds.next
    intro _
    split
    · apply Finds.bind h.expression.attempt
      intro condition? within
      apply Finds.next
      intro _
      exact .pure within
    · exact .pure nofun

theorem join {left : TableSource} (first : left.outline.Within (k + 2)) :
    Finds (fun _ => True) (fun r => r.1.outline.Within (k + 2)) (Parser.join inner left) := by
  apply Finds.next
  intro kind?
  cases kind? with
  | none => exact .pure first
  | some kind =>
      apply Finds.attemptNext h.table
      · exact .next fun _ => .pure first
      · intro right second
        apply Finds.bind (h.joinCondition kind)
        intro condition? on
        apply Finds.pure
        apply Outline.within_same
        · exact Nat.le_refl 1
        · rw [List.forall_mem_cons, List.forall_mem_cons, Expression.outlines?_eq_map,
            List.forall_mem_map]
          refine ⟨first, second, fun e is => ?_⟩
          exact (on e (Option.mem_toList.1 is)).mono (Nat.le_succ _)

theorem tableSource : Bounds (k + 2) TableSource.outline (Parser.tableSource inner) := by
  apply Finds.bind h.table
  intro first within
  exact .iterate (fun _ => h.join) within

theorem sourceList :
    Finds (fun _ => True) (fun sources => ∀ source ∈ sources, source.outline.Within (k + 2))
      (Parser.sourceList inner) :=
  .commaList h.tableSource

/-! The select list. -/

theorem selectItem : Bounds (k + 1) SelectItem.outline (Parser.selectItem inner) := by
  have labelled {e : Expression} {label : Option Identifier} (within : e.outline.Within (k + 1)) :
      (SelectItem.expression e label).outline.Within (k + 1) :=
    Outline.within_same (Nat.zero_le _) (List.forall_mem_singleton.2 within)
  apply Finds.next
  intro t
  apply Finds.next
  intro next
  dsimp only
  split
  · apply Finds.next
    intro _
    exact .pure (Outline.within_inside nofun)
  · split
    · apply Finds.next
      intro label?
      apply Finds.next
      intro _
      apply Finds.bind h.expression
      intro e within
      exact .pure (labelled within)
    · split
      · apply Finds.next
        intro _
        apply Finds.next
        intro _
        apply Finds.bind h.expression
        intro e within
        exact .pure (labelled within)
      · apply Finds.next
        intro _
        split
        · rw [qualifiedStar_eq]
          apply Finds.next
          intro location
          apply Finds.next
          intro parts
          apply Finds.next
          intro _
          apply Finds.pure
          apply Outline.within_same (Nat.zero_le _)
          exact List.forall_mem_singleton.2 (Outline.within_inside nofun)
        · apply Finds.bind h.expression
          intro e within
          apply Finds.next
          intro label
          exact .pure (labelled within)

theorem selectList :
    Finds (fun _ => True) (fun items => ∀ item ∈ items, item.outline.Within (k + 1))
      (Parser.selectList inner) := by
  apply Finds.next
  intro _
  split
  · exact .next fun _ => .pure nofun
  · exact .commaList h.selectItem

/-- The quantity may stand without parentheses, one level less inside. -/
theorem topQuantity : Bounds (k + 2) Expression.outline (Parser.topQuantity inner) := by
  apply Finds.next
  intro _
  split
  · apply Finds.bind h.expression.attempt
    intro e? within
    apply Finds.next
    intro _
    exact .ofOption fun e is => (within e is).mono (Nat.le_succ _)
  · exact h.primary

theorem top : Bounds (k + 2) (fun top => top.quantity.outline) (Parser.top inner) := by
  apply Finds.next
  intro _
  apply Finds.bind h.topQuantity
  intro quantity within
  apply Finds.next
  intro percent
  apply Finds.next
  intro next
  apply Finds.next
  intro withTies
  apply Finds.next
  intro _
  exact .pure within

/-! Clauses. -/

theorem fromClause :
    Finds (fun _ => True) (fun sources => ∀ source ∈ sources, source.outline.Within (k + 2))
      (Parser.fromClause inner) := by
  apply Finds.next
  intro _
  split
  · exact h.sourceList
  · exact .pure nofun

theorem expressionClause (word : Keyword) :
    Finds (fun _ => True) (fun e? => ∀ e ∈ e?, e.outline.Within (k + 1))
      (Parser.expressionClause inner word) := by
  apply Finds.next
  intro _
  split
  · apply Finds.bind h.expression.attempt
    intro e? within
    exact .next fun _ => .pure within
  · exact .pure nofun

theorem groupClause :
    Finds (fun _ => True) (fun list => ∀ e ∈ list, e.outline.Within (k + 1))
      (Parser.groupClause inner) := by
  apply Finds.next
  intro _
  split
  · apply Finds.bind (.attempt (.next fun _ => .next fun _ => h.expressionList))
    intro list? within
    apply Finds.next
    intro _
    exact .pure (forall_mem_getD within)
  · exact .pure nofun

theorem orderClause :
    Finds (fun _ => True) (fun items => ∀ item ∈ items, item.outline.Within (k + 1))
      (Parser.orderClause inner) := by
  apply Finds.next
  intro _
  split
  · apply Finds.bind (.attempt (.next fun _ => h.orderList))
    intro list? within
    apply Finds.next
    intro _
    apply Finds.next
    intro _
    apply Finds.next
    intro _
    exact .pure (forall_mem_getD within)
  · exact .pure nofun

theorem selectQuery : Finds (fun _ => True) (Query.Within (k + 2)) (Parser.selectQuery inner) := by
  apply Finds.next
  intro location
  apply Finds.next
  intro _
  apply Finds.next
  intro distinct
  apply Finds.next
  intro _
  apply Finds.next
  intro _
  apply Finds.bind (.onlyIf h.top)
  intro top? quantity
  apply Finds.bind h.selectList
  intro items listed
  apply Finds.next
  intro into
  apply Finds.bind h.fromClause
  intro sources read
  apply Finds.bind (h.expressionClause .where)
  intro condition filtered
  apply Finds.bind h.groupClause
  intro groupBy grouped
  apply Finds.bind (h.expressionClause .having)
  intro having kept
  apply Finds.bind h.orderClause
  intro orderBy ordered
  apply Finds.next
  intro _
  apply Finds.pure
  refine ⟨nofun, ?_, nofun⟩
  simp only [Query.clauses, Top.outlines?_eq_map, SelectItem.outlines_eq_map,
    TableSource.outlines_eq_map, Expression.outlines?_eq_map, Expression.outlines_eq_map,
    OrderItem.outlines_eq_map, List.forall_mem_append, List.forall_mem_map, Option.mem_toList]
  exact ⟨⟨⟨⟨⟨⟨quantity, fun item member => (listed item member).mono (Nat.le_succ _)⟩, read⟩,
    fun e is => (filtered e is).mono (Nat.le_succ _)⟩,
    fun e member => (grouped e member).mono (Nat.le_succ _)⟩,
    fun e is => (kept e is).mono (Nat.le_succ _)⟩,
    fun item member => (ordered item member).mono (Nat.le_succ _)⟩

/-! Whole queries. -/

theorem queryTerm : Finds (fun _ => True) (Query.Within (k + 2)) (Parser.queryTerm inner) := by
  apply Finds.next
  intro _
  split
  · exact h.selectQuery
  · apply Finds.next
    intro _
    split
    · apply Finds.next
      intro _
      apply Finds.bind h.query.attempt
      intro query? within
      apply Finds.next
      intro _
      exact .ofOption fun query is => (within query is).mono (Nat.le_add_right k 2)
    · exact .missing

theorem queryChain : Finds (fun _ => True) (Query.Within (k + 2)) (Parser.queryChain inner) := by
  apply Finds.chainRight h.queryTerm
  rintro query operator right ⟨tables, clauses, -⟩ second
  refine ⟨tables, clauses, ?_⟩
  rintro _ ⟨⟩
  exact second.outline

omit [inner.Stepwise] in
theorem commonTableQuery :
    Finds (fun _ => True) (Query.Within k) (Parser.commonTableQuery inner) := by
  apply Finds.next
  intro _
  split
  · exact h.query
  · exact .missing

theorem commonTable :
    Finds (fun _ => True) (fun r => ∀ table ∈ r.1, table.query.outline.Within (k + 1))
      (Parser.commonTable inner) := by
  apply Finds.next
  intro head?
  split
  · exact .next fun _ => .pure nofun
  · apply Finds.bind h.commonTableQuery.attempt
    intro query? within
    apply Finds.next
    intro _
    apply Finds.next
    intro more
    apply Finds.pure
    intro table member
    obtain ⟨query, is, rfl⟩ := Option.map_eq_some_iff.1 member
    exact (within query is).outline

theorem commonTables :
    Finds (fun _ => True) (fun tables => ∀ table ∈ tables, table.query.outline.Within (k + 1))
      (Parser.commonTables inner) := by
  apply Finds.next
  intro _
  split
  · exact .collect h.commonTable
  · exact .pure nofun

theorem queryStatement :
    Finds (fun _ => True) (Query.Within (k + 2)) (Parser.queryStatement inner) := by
  apply Finds.next
  intro location
  apply Finds.bind h.commonTables
  intro tables within
  have raised (table : CommonTable) (member : table ∈ tables) :
      table.query.outline.Within (k + 2) := (within table member).mono (Nat.le_succ _)
  apply Finds.attemptNext h.queryChain
  · dsimp only
    split
    · exact .giveUp
    · exact .pure ⟨raised, nofun, nofun⟩
  · intro query behind
    exact .pure ⟨raised, behind.clauses, behind.joined⟩

end LevelBounds

/-- With `n` levels what is found is within `2 * n + 1`. -/
theorem levelBounds (n : Nat) : LevelBounds (2 * n) (level n) := by
  induction n with
  | zero => exact ⟨.tooDeep, .tooDeep, .tooDeep, .tooDeep, .tooDeep⟩
  | succ n ih =>
      have signs := ih.signs.weaken fun e within => within.mono (Nat.le_succ _)
      have source := ih.tableSource.weaken fun e within => within.mono (Nat.le_succ _)
      exact ⟨ih.queryStatement, source, ih.disjunction, ih.negations, signs⟩

/-! Scripts. -/

theorem query_within : Finds (fun _ => True) (Query.Within (2 * nestingLimit)) query := by
  apply Finds.bind (levelBounds nestingLimit).query.attempt
  intro query? within
  apply Finds.next
  intro _
  exact .ofOption within

theorem script_within :
    Finds (fun _ => True) (fun queries => ∀ q ∈ queries, q.Within (2 * nestingLimit)) script := by
  apply Finds.collect
  apply Finds.next
  intro _
  split
  · exact .pure nofun
  · apply Finds.next
    intro _
    split
    · exact .pure nofun
    · apply Finds.next
      intro _
      split
      · apply Finds.bind query_within.attempt
        intro query? within
        exact .pure within
      · exact .next fun _ => .pure nofun

end QueryNames.Grammar.Parser
