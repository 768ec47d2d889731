import QueryNames.Grammar.Script
import QueryNames.Proofs.Reading.Expression

/-!
Table sources, queries and scripts read no more than they pass. Main statement: from any state, on
whatever path, a script names none but identifiers passed since, each once and in their order.
-/

namespace QueryNames.Grammar.Parser

namespace Reads

variable {before : List Identifier}

theorem tableLabel : Reads [] tableLabel := by
  refine .bind .accept fun _ => ?_
  split
  · refine .bind identifier.attempt fun label? => ?_
    cases label? with
    | none => exact .bind reportMissing fun _ => .pure (by simp [names])
    | some label => exact .pure (by simp [names])
  · refine .bind (.look fun _ => rfl) fun _ => ?_
    split
    · exact .pure (by simp [names])
    · exact .forget identifier.attempt

theorem skipHints : Reads [] skipHints := by
  refine .bind (.look fun _ => rfl) fun next => .bind .accept fun _ => ?_
  refine .bind (.onlyIf skipParenthesized) fun _ => .bind .accept fun _ => ?_
  exact .bind (.onlyIf skipUntil) fun _ => .pure (by simp [names])

theorem joinOperator? : Reads [] joinOperator? := by
  refine .bind (.look fun _ => rfl) fun t => .bind (.look fun _ => rfl) fun next => ?_
  split
  · exact .pure (by simp [names])
  · split
    · exact .bind advance fun _ => .bind advance fun _ => .pure (by simp [names])
    · refine .bind .accept fun _ => ?_
      split
      · exact .pure (by simp [names])
      · refine .bind advance fun _ => .bind .accept fun _ => .bind .accept fun _ => ?_
        exact .bind (.succeeds requireKeyword) fun _ => .pure (by simp [names])

theorem columnLabel : Passes columnLabel := by
  refine .bind Reads.accept.passes fun explicit => ?_
  refine .bind (Reads.passes (.look fun _ => rfl)) fun t => ?_
  split
  · exact identifier.attempt.passes
  · exact .bind advance.passes fun _ => .pure
  · exact .bind (Reads.onlyIf reportMissing).passes fun _ => .pure

theorem qualifiedStar : Reads [] qualifiedStar := by
  refine .bind (.look fun _ => rfl) fun location => .bind (.collect ?_) fun parts => ?_
  · refine .bind identifier.attempt fun part? => ?_
    cases part? with
    | none => exact .pure (by simp [names])
    | some part => exact .bind advance fun _ => .pure (by simp [names])
  · refine .bind advance fun _ => .pure ?_
    cases parts <;>
      simp [names, QualifiedName.ofList?, QualifiedName.parts, SelectItem.outline, Column.outline,
        Node.mentions, Function.comp_def]

theorem intoClause : Reads [] intoClause := by
  refine .bind .accept fun _ => ?_
  split
  · refine .bind qualifiedName.attempt fun name? => ?_
    exact .bind finishClause fun _ => .pure (by simp [names])
  · exact .pure (by simp [names])

theorem skipOptions : Reads [] skipOptions := by
  refine .bind .accept fun _ => .bind (.onlyIf skipUntil) fun _ => .bind .accept fun _ => ?_
  refine .bind (.onlyIf (.bind (.look fun _ => rfl) fun _ => ?_)) fun _ => .pure (by simp [names])
  split
  · exact .forget skipParenthesized
  · exact .forget reportMissing

theorem setOperator? : Reads [] setOperator? := by
  refine .bind .accept fun _ => ?_
  split
  · refine .bind .accept fun _ => ?_
    split <;> exact .pure (by simp [names])
  · refine .bind .accept fun _ => ?_
    split
    · exact .pure (by simp [names])
    · refine .bind .accept fun _ => ?_
      split <;> exact .pure (by simp [names])

theorem commonTableHead : Reads [] commonTableHead := by
  refine .bind requireIdentifier fun name => .bind columnNames fun columns => ?_
  refine .bind requireKeyword fun _ => .bind requirePunctuation fun _ => .pure ?_
  simp [names]

end Reads

namespace LevelReads

variable {inner : Level} (h : LevelReads inner) {before : List Identifier}

/-! Table sources. -/

include h

theorem derivedTable : Reads [] (derivedTable inner) := by
  refine .bind .advance fun _ => .bind h.query.attempt fun query? => .bind .closeParen fun _ => ?_
  refine .bind .tableLabel fun label => .bind (.onlyIf .reportMissing) fun _ => ?_
  refine .bind .columnNames fun columns => .handOn (.ofOption (by simp [names])) fun query => ?_
  exact .pure (by simp [names, TableSource.outline, Node.mentions])

theorem parenthesizedSource : Reads [] (parenthesizedSource inner) := by
  refine .bind .advance fun _ => .bind h.source.attempt fun source? => ?_
  refine .bind .closeParen fun _ => .handOn (.ofOption (by simp [names])) fun source => ?_
  exact .pure (by simp [names, TableSource.outline, Node.mentions])

theorem namedSource : Reads [] (namedSource inner) := by
  refine .bind .qualifiedName fun name => .bind .accept fun _ => ?_
  split
  · refine .bind h.arguments fun list => .bind .tableLabel fun label => .pure ?_
    simp [names, TableSource.outline, Node.mentions, List.flatMap_map]
  · refine .bind .tableLabel fun label => .bind .skipHints fun _ => .pure ?_
    simp [names, TableSource.outline, NamedTable.outline, Node.mentions]

theorem table : Reads [] (table inner) := by
  refine .bind (.look fun _ => rfl) fun t => ?_
  split
  · refine .bind (.look fun _ => rfl) fun _ => ?_
    split
    · exact .forget h.derivedTable
    · exact .forget h.parenthesizedSource
  · refine .bind .advance fun _ => .bind .tableLabel fun label => .pure ?_
    simp [names, TableSource.outline, Node.mentions]
  · exact .forget h.namedSource
  · exact .missing

theorem joinCondition (kind : JoinKind) : Reads [] (joinCondition inner kind) := by
  dsimp only [Parser.joinCondition]
  split
  · exact .pure (by simp [names])
  · refine .bind (.succeeds .requireKeyword) fun _ => ?_
    split
    · refine .bind (.forget h.expression.attempt) fun condition? => ?_
      exact .bind (.onlyIf .skipUntil) fun _ => .pure (by simp [names])
    · exact .pure (by simp [names])

theorem skipJoin : Reads [] (skipJoin inner) :=
  .bind .skipUntil fun _ => .bind .accept fun _ => .bind (.onlyIf h.expression) fun _ =>
    .pure (by simp [names])

theorem join (left : TableSource) : Reads (names left) (join inner left) := by
  refine .bind .joinOperator? fun kind? => ?_
  cases kind? with
  | none => exact .pure (by simp [names])
  | some kind =>
      refine .bind h.table.attempt fun right? => ?_
      cases right? with
      | none => exact .bind h.skipJoin fun _ => .pure (by simp [names])
      | some right =>
          refine .bind (h.joinCondition kind) fun condition? => .pure ?_
          cases condition? <;> simp [names, TableSource.outline, Node.mentions]

theorem tableSource : Reads [] (tableSource inner) :=
  .bind h.table fun left => by simpa using Reads.iterate h.join left

theorem sourceList : Reads [] (sourceList inner) := .commaList h.tableSource

/-! The select list. -/

theorem selectItem : Reads [] (selectItem inner) := by
  refine .bind (.look fun _ => rfl) fun t => .bind (.look fun _ => rfl) fun next => ?_
  dsimp only
  split
  · exact .bind .advance fun _ => .pure (by simp [names, SelectItem.outline, Node.mentions])
  · split
    · refine .bind (.forget Reads.identifier.attempt) fun label? => .bind .advance fun _ => ?_
      refine .bind (.forget h.expression) fun e => .pure ?_
      simp [names, SelectItem.outline, Node.mentions]
    · split
      · refine .bind .advance fun _ => .bind .advance fun _ => ?_
        refine .bind (.forget h.expression) fun e => .pure ?_
        simp [names, SelectItem.outline, Node.mentions]
      · refine .bind (.look fun _ => rfl) fun _ => ?_
        split
        · exact .forget .qualifiedStar
        · refine .bind (.forget h.expression) fun e =>
            .passOver Reads.columnLabel fun label? => .pure ?_
          simp [names, SelectItem.outline, Node.mentions]

theorem selectList : Reads [] (selectList inner) := by
  refine .bind (.look fun _ => rfl) fun _ => ?_
  split
  · exact .bind .reportMissing fun _ => .pure (by simp [names])
  · exact .forget (.commaList h.selectItem)

theorem topQuantity : Reads [] (topQuantity inner) := by
  refine .bind .accept fun _ => ?_
  split
  · refine .bind (.forget h.expression.attempt) fun e? => .bind .closeParen fun _ => ?_
    exact .ofOption (by simp [names])
  · exact .forget h.primary

theorem top : Reads [] (top inner) := by
  refine .bind .advance fun _ => .bind (.forget h.topQuantity) fun quantity => ?_
  refine .bind .accept fun percent => .bind (.look fun _ => rfl) fun next => ?_
  refine .bind .accept fun withTies => .bind (.onlyIf .advance) fun _ => .pure ?_
  simp [names]

/-! Clauses. -/

theorem fromClause : Reads [] (fromClause inner) := by
  refine .bind .accept fun _ => ?_
  split
  · exact .forget h.sourceList
  · exact .pure (by simp [names])

theorem expressionClause (k : Keyword) : Reads [] (expressionClause inner k) := by
  refine .bind .accept fun _ => ?_
  split
  · refine .bind (.forget h.expression.attempt) fun e? => ?_
    exact .bind .finishClause fun _ => .pure (by simp [names])
  · exact .pure (by simp [names])

theorem groupClause : Reads [] (groupClause inner) := by
  refine .bind .accept fun _ => ?_
  split
  · refine .bind (.forget (.attempt (.bind .requireKeyword fun _ => .bind .accept fun _ =>
      .forget h.expressionList))) fun list? => ?_
    refine .bind .finishClause fun _ => .pure ?_
    cases list? <;> simp [names]
  · exact .pure (by simp [names])

theorem orderClause : Reads [] (orderClause inner) := by
  refine .bind .accept fun _ => ?_
  split
  · refine .bind (.forget (.attempt (.bind .requireKeyword fun _ => .forget h.orderList)))
      fun list? => ?_
    refine .bind .accept fun _ => .bind (.onlyIf .skipUntil) fun _ => ?_
    refine .bind .finishClause fun _ => .pure ?_
    cases list? <;> simp [names]
  · exact .pure (by simp [names])

theorem selectQuery : Reads [] (selectQuery inner) := by
  refine .bind (.look fun _ => rfl) fun location => .bind .advance fun _ => ?_
  refine .bind .accept fun distinct => .bind (.onlyIf .accept) fun _ => ?_
  refine .bind (.look fun _ => rfl) fun _ => .bind (.onlyIf h.top) fun top? => ?_
  refine .bind h.selectList fun items => .bind .intoClause fun into => ?_
  refine .bind h.fromClause fun sources => .bind (h.expressionClause _) fun condition => ?_
  refine .bind h.groupClause fun groupBy => .bind (h.expressionClause _) fun having => ?_
  refine .bind h.orderClause fun orderBy => .bind .skipOptions fun _ => .pure ?_
  cases top? <;> cases condition <;> cases having <;>
    simp [names, Query.outline, Node.mentions, List.flatMap_map]

/-! Whole queries. -/

theorem queryTerm : Reads [] (queryTerm inner) := by
  refine .bind (.look fun _ => rfl) fun _ => ?_
  split
  · exact .forget h.selectQuery
  · refine .bind (.look fun _ => rfl) fun _ => ?_
    split
    · refine .bind .advance fun _ => .bind (.forget h.query.attempt) fun query? => ?_
      exact .bind .closeParen fun _ => .ofOption (by simp [names])
    · exact .missing

omit h in
/-- A set operation that takes the place of another takes its names away. -/
theorem joinedNames (left : Query) (operator : SetOperator) (right : Query) :
    (names { left with setOperation := some ⟨operator, right⟩ }).Sublist
      (names left ++ names right) := by
  obtain ⟨location, commonTables, distinct, top, items, into, sources, condition, groupBy, having,
    orderBy, setOperation⟩ := left
  simp [names, Query.outline, Node.mentions]

theorem queryChain : Reads [] (queryChain inner) :=
  .chainRight h.queryTerm .setOperator? joinedNames

theorem commonTableQuery : Reads [] (commonTableQuery inner) := by
  refine .bind (.look fun _ => rfl) fun _ => ?_
  split
  · exact .forget h.query
  · exact .missing

theorem commonTable : Reads [] (commonTable inner) := by
  refine .bind (.attempt .commonTableHead) fun head? => ?_
  split
  · exact .bind .skipUntil fun _ => .pure (by simp [names])
  · refine .bind h.commonTableQuery.attempt fun query? => .bind .closeParen fun _ => ?_
    refine .bind .accept fun more => .pure ?_
    cases query? <;> simp [names, CommonTable.outline, Node.mentions]

theorem commonTables : Reads [] (commonTables inner) := by
  refine .bind .accept fun _ => ?_
  split
  · exact .forget (.collect h.commonTable)
  · exact .pure (by simp [names])

omit h in
/-- Common tables that take the place of others take their names away. -/
theorem headedNames (query : Query) (tables : List CommonTable) :
    (names { query with commonTables := tables }).Sublist (names tables ++ names query) := by
  obtain ⟨location, commonTables, distinct, top, items, into, sources, condition, groupBy, having,
    orderBy, setOperation⟩ := query
  simp [names, Query.outline, Node.mentions, List.flatMap_map]

theorem queryStatement : Reads [] (queryStatement inner) := by
  refine .bind (.look fun _ => rfl) fun location => .bind h.commonTables fun tables => ?_
  refine .bind h.queryChain.attempt fun query? => ?_
  cases query? with
  | none =>
      dsimp only
      split
      · exact .giveUp
      · exact .pure (by simp [names, Query.outline, Node.mentions, List.flatMap_map])
  | some query =>
      refine .pure ?_
      simpa [names] using headedNames query tables

end LevelReads

/-! Every level, by induction on how many are left inside it. -/

theorem levelReads (n : Nat) : LevelReads (level n) := by
  induction n with
  | zero => exact ⟨.tooDeep, .tooDeep, .tooDeep, .tooDeep, .tooDeep⟩
  | succ n ih =>
      exact ⟨ih.queryStatement, ih.tableSource, ih.disjunction, ih.negations, ih.signs⟩

namespace Reads

theorem skipStatement : Reads [] skipStatement :=
  .iterate (fun _ => .bind skipUntil fun _ => .bind .accept fun _ => .pure (by simp [names])) ()

theorem finishStatement : Reads [] finishStatement := by
  refine .bind (.look fun _ => rfl) fun _ => ?_
  split
  · exact .pure (by simp [names])
  · exact .bind reportSurplus fun _ => .forget skipStatement

theorem query : Reads [] query := by
  refine .bind (levelReads nestingLimit).query.attempt fun query? => ?_
  exact .bind finishStatement fun _ => .ofOption (by simp [names])

theorem otherStatement : Reads [] otherStatement := by
  refine .bind ?_ fun _ => .bind advance fun _ => .forget skipStatement
  refine .bind (.look fun _ => rfl) fun t => ?_
  split
  · split
    · exact .forget .report
    · exact .forget reportMissing
  · exact .forget reportMissing

theorem statement : Reads [] statement := by
  refine .bind .accept fun _ => ?_
  split
  · exact .pure (by simp [names])
  · refine .bind (.look fun _ => rfl) fun _ => ?_
    split
    · exact .pure (by simp [names])
    · refine .bind (.look fun _ => rfl) fun _ => ?_
      split
      · exact .bind query.attempt fun query? => .pure (by simp [names])
      · exact .bind otherStatement fun _ => .pure (by simp [names])

theorem script : Reads [] script := .collect statement

end Reads

end QueryNames.Grammar.Parser
