import QueryNames.Proofs.Built.Expression

/-!
How sources, queries and scripts are built. Main statement: the queries of a script are built with
as many levels as the grammar has.
-/

namespace QueryNames.Grammar.Parser

namespace Finds

variable {reads : Identifier → Prop}

theorem tableLabel : Finds reads (fun label => ∀ name ∈ label, reads name) tableLabel := by
  apply next
  intro _
  split
  · apply attemptNext identifier
    · exact next fun _ => pure nofun
    · intro label found
      apply pure
      rintro _ ⟨⟩
      exact found
  · apply next
    intro _
    split
    · exact pure nofun
    · exact identifier.attempt

/-- What is read as a label counts as one of the text, unless it is a string. -/
theorem columnLabel :
    Finds reads (fun label => ∀ name ∈ label, name.quote ≠ some .single → reads name)
      columnLabel := by
  apply next
  intro explicit
  apply next
  intro t
  split
  · exact identifier.attempt.weaken fun label found name member _ => found name member
  · apply next
    intro _
    apply pure
    rintro _ ⟨⟩ text
    exact absurd rfl text
  · apply next
    intro _
    apply pure
    rintro _ ⟨⟩

theorem starPart : Finds reads (fun r => ∀ part ∈ r.1, reads part) starPart := by
  apply attemptNext identifier
  · exact pure nofun
  · intro part found
    apply next
    intro _
    apply pure
    rintro _ ⟨⟩
    exact found

theorem intoClause :
    Finds reads (fun name? => ∀ name ∈ name?, ∀ part ∈ name.parts, reads part) intoClause := by
  apply next
  intro _
  split
  · apply bind qualifiedName.attempt
    intro name? found
    exact next fun _ => pure found
  · exact pure nofun

theorem commonTableHead :
    Finds reads (fun head => ∀ name ∈ head.1 :: head.2, reads name) commonTableHead := by
  apply bind requireIdentifier
  intro name found
  apply bind columnNames
  intro columns founds
  apply next
  intro _
  apply next
  intro _
  exact pure (List.forall_mem_cons.2 ⟨found, founds⟩)

end Finds

namespace LevelBuilds

variable {reads : Identifier → Prop} {n : Nat} {inner : Level} [inner.Stepwise]
  (h : LevelBuilds reads n inner)

/-! Table sources. -/

section Sources

include h

theorem derivedTable : Builds reads (n + 1) .source (Parser.derivedTable inner) := by
  apply Finds.next
  intro _
  apply Finds.bind h.query.attempt
  intro query? built
  apply Finds.next
  intro _
  apply Finds.bind .tableLabel
  intro label labels
  apply Finds.next
  intro _
  apply Finds.bind .columnNames
  intro columns names
  apply Finds.bind (.ofOption built)
  intro query inside
  apply Finds.pure
  apply Built.derived _ inside
  exact List.forall_mem_append.2 ⟨by simpa using labels, names⟩

theorem parenthesizedSource :
    Builds reads (n + 1) .source (Parser.parenthesizedSource inner) := by
  apply Finds.next
  intro _
  apply Finds.bind h.source.attempt
  intro source? built
  apply Finds.next
  intro _
  apply Finds.bind (.ofOption built)
  intro source inside
  exact .pure (.parenthesized inside)

theorem namedSource : Builds reads (n + 1) .source (Parser.namedSource inner) := by
  have together {name : QualifiedName} {label : Option Identifier}
      (names : ∀ part ∈ name.parts, reads part) (labels : ∀ name ∈ label, reads name) :
      ∀ part ∈ name.parts ++ label.toList, reads part :=
    List.forall_mem_append.2 ⟨names, by simpa using labels⟩
  apply Finds.bind .qualifiedName
  intro name names
  apply Finds.next
  intro _
  split
  · apply Finds.bind h.arguments
    intro list built
    apply Finds.bind .tableLabel
    intro label labels
    exact .pure (.tableFunction (together names labels) built)
  · apply Finds.bind .tableLabel
    intro label labels
    apply Finds.next
    intro _
    exact .pure (.table (together names labels))

theorem table : Builds reads (n + 1) .source (Parser.table inner) := by
  apply Finds.next
  intro t
  split
  · apply Finds.next
    intro _
    split
    · exact h.derivedTable
    · exact h.parenthesizedSource
  · apply Finds.next
    intro _
    apply Finds.bind .tableLabel
    intro label labels
    exact .pure (.tableVariable labels)
  · exact h.namedSource
  · exact .missing

theorem joinCondition (kind : JoinKind) :
    Finds reads (fun condition => ∀ e ∈ condition, Built reads n (.expression e))
      (Parser.joinCondition inner kind) := by
  dsimp only [Parser.joinCondition]
  split
  · exact .pure nofun
  · apply Finds.next
    intro _
    split
    · apply Finds.bind h.expression.attempt
      intro condition? built
      apply Finds.next
      intro _
      exact .pure built
    · exact .pure nofun

theorem join {left : TableSource} (first : Built reads (n + 1) (.source left)) :
    Finds reads (fun r => Built reads (n + 1) (.source r.1)) (Parser.join inner left) := by
  apply Finds.next
  intro kind?
  cases kind? with
  | none => exact .pure first
  | some kind =>
      apply Finds.attemptNext h.table
      · exact .next fun _ => .pure first
      · intro right second
        apply Finds.bind (h.joinCondition kind)
        intro condition? built
        exact .pure (.joined first second built)

theorem tableSource : Builds reads (n + 1) .source (Parser.tableSource inner) := by
  apply Finds.bind h.table
  intro first built
  exact .iterate (fun _ => h.join) built

theorem sourceList :
    Finds reads (fun sources => ∀ source ∈ sources, Built reads (n + 1) (.source source))
      (Parser.sourceList inner) :=
  .commaList h.tableSource

end Sources

/-! The select list. -/

theorem qualifiedStar : Builds reads (n + 1) .item Parser.qualifiedStar := by
  rw [qualifiedStar_eq]
  apply Finds.next
  intro location
  apply Finds.bind (.collect .starPart)
  intro parts found
  apply Finds.next
  intro _
  apply Finds.pure
  apply Built.qualifiedWildcard
  cases parts with
  | nil => exact List.forall_mem_nil _
  | cons first others => simpa [Node.names, QualifiedName.ofList?, QualifiedName.parts] using found

section Clauses

include h

theorem selectItem : Builds reads (n + 1) .item (Parser.selectItem inner) := by
  have labelled {e : Expression} {label : Option Identifier}
      (built : Built reads n (.expression e))
      (labels : ∀ name ∈ label, name.quote ≠ some .single → reads name) :
      Built reads (n + 1) (.item (.expression e label)) := by
    apply Built.item _ built
    intro name member
    obtain ⟨among, text⟩ := List.mem_filter.1 member
    exact labels name (Option.mem_toList.1 among) (of_decide_eq_true text)
  apply Finds.next
  intro t
  apply Finds.next
  intro next
  dsimp only
  split
  · exact .next fun _ => .pure .wildcard
  · split
    · apply Finds.bind Finds.identifier.attempt
      intro label? found
      apply Finds.next
      intro _
      apply Finds.bind h.expression
      intro e built
      exact .pure (labelled built fun name member _ => found name member)
    · split
      · apply Finds.next
        intro _
        apply Finds.next
        intro _
        apply Finds.bind h.expression
        intro e built
        exact .pure (labelled built nofun)
      · apply Finds.next
        intro _
        split
        · exact qualifiedStar
        · apply Finds.bind h.expression
          intro e built
          apply Finds.bind .columnLabel
          intro label labels
          exact .pure (labelled built labels)

theorem selectList :
    Finds reads (fun items => ∀ item ∈ items, Built reads (n + 1) (.item item))
      (Parser.selectList inner) := by
  apply Finds.next
  intro _
  split
  · exact .next fun _ => .pure nofun
  · exact .commaList h.selectItem

theorem topQuantity : Builds reads (n + 1) .expression (Parser.topQuantity inner) := by
  apply Finds.next
  intro _
  split
  · apply Finds.bind h.expression.attempt
    intro e? built
    apply Finds.next
    intro _
    exact .ofOption fun e member => (built e member).deepen
  · exact h.primary

theorem top : Builds reads (n + 1) (fun top => .expression top.quantity) (Parser.top inner) := by
  apply Finds.next
  intro _
  apply Finds.bind h.topQuantity
  intro quantity built
  apply Finds.next
  intro percent
  apply Finds.next
  intro next
  apply Finds.next
  intro withTies
  apply Finds.next
  intro _
  exact .pure built

/-! Clauses. -/

theorem fromClause :
    Finds reads (fun sources => ∀ source ∈ sources, Built reads (n + 1) (.source source))
      (Parser.fromClause inner) := by
  apply Finds.next
  intro _
  split
  · exact h.sourceList
  · exact .pure nofun

theorem expressionClause (k : Keyword) :
    Finds reads (fun e? => ∀ e ∈ e?, Built reads n (.expression e))
      (Parser.expressionClause inner k) := by
  apply Finds.next
  intro _
  split
  · apply Finds.bind h.expression.attempt
    intro e? built
    exact .next fun _ => .pure built
  · exact .pure nofun

theorem groupClause :
    Finds reads (fun list => ∀ e ∈ list, Built reads n (.expression e))
      (Parser.groupClause inner) := by
  apply Finds.next
  intro _
  split
  · apply Finds.bind (.attempt (.next fun _ => .next fun _ => h.expressionList))
    intro list? built
    apply Finds.next
    intro _
    exact .pure (forall_mem_getD built)
  · exact .pure nofun

theorem orderClause :
    Finds reads (fun items => ∀ item ∈ items, Built reads n (.expression item.expression))
      (Parser.orderClause inner) := by
  apply Finds.next
  intro _
  split
  · apply Finds.bind (.attempt (.next fun _ => h.orderList))
    intro list? built
    apply Finds.next
    intro _
    apply Finds.next
    intro _
    apply Finds.next
    intro _
    exact .pure (forall_mem_getD built)
  · exact .pure nofun

theorem selectQuery : Builds reads (n + 1) .query (Parser.selectQuery inner) := by
  apply Finds.next
  intro location
  apply Finds.next
  intro _
  apply Finds.next
  intro distinct
  apply Finds.next
  intro _
  apply Finds.next
  intro _
  apply Finds.bind (.onlyIf h.top)
  intro top? quantity
  apply Finds.bind h.selectList
  intro items listed
  apply Finds.bind .intoClause
  intro into names
  apply Finds.bind h.fromClause
  intro sources read
  apply Finds.bind (h.expressionClause .where)
  intro condition filtered
  apply Finds.bind h.groupClause
  intro groupBy grouped
  apply Finds.bind (h.expressionClause .having)
  intro having kept
  apply Finds.bind h.orderClause
  intro orderBy ordered
  apply Finds.next
  intro _
  apply Finds.pure
  refine .select rfl rfl ?_ quantity listed read filtered grouped kept ordered
  intro part member
  obtain ⟨name, is, among⟩ := List.mem_flatMap.1 member
  exact names name (Option.mem_toList.1 is) part among

/-! Whole queries. -/

theorem queryTerm : Builds reads (n + 1) .query (Parser.queryTerm inner) := by
  apply Finds.next
  intro _
  split
  · exact h.selectQuery
  · apply Finds.next
    intro _
    split
    · apply Finds.next
      intro _
      apply Finds.bind h.query.attempt
      intro query? built
      apply Finds.next
      intro _
      exact .ofOption fun query member => (built query member).deepen
    · exact .missing

theorem queryChain : Builds reads (n + 1) .query (Parser.queryChain inner) :=
  .chainRight h.queryTerm fun _ _ _ => .chained

omit [inner.Stepwise] in
theorem commonTableQuery : Builds reads n .query (Parser.commonTableQuery inner) := by
  apply Finds.next
  intro _
  split
  · exact h.query
  · exact .missing

theorem commonTable :
    Finds reads (fun r => ∀ table ∈ r.1, (∀ name ∈ (Node.commonTable table).names, reads name) ∧
      Built reads n (.query table.query)) (Parser.commonTable inner) := by
  apply Finds.attemptNext .commonTableHead
  · exact .next fun _ => .pure nofun
  · rintro ⟨name, columns⟩ names
    apply Finds.bind h.commonTableQuery.attempt
    intro query? built
    apply Finds.next
    intro _
    apply Finds.next
    intro more
    apply Finds.pure
    intro table member
    obtain ⟨query, is, rfl⟩ := Option.map_eq_some_iff.1 member
    exact ⟨names, built query is⟩

theorem commonTables :
    Finds reads (fun tables => ∀ table ∈ tables,
      (∀ name ∈ (Node.commonTable table).names, reads name) ∧ Built reads n (.query table.query))
      (Parser.commonTables inner) := by
  apply Finds.next
  intro _
  split
  · exact .collect h.commonTable
  · exact .pure nofun

theorem queryStatement : Builds reads (n + 1) .query (Parser.queryStatement inner) := by
  have headed {query : Query} {tables : List CommonTable}
      (built : ∀ table ∈ tables, (∀ name ∈ (Node.commonTable table).names, reads name) ∧
        Built reads n (.query table.query)) (behind : Built reads (n + 1) (.query query)) :
      Built reads (n + 1) (.query { query with commonTables := tables }) :=
    .withTables (fun table member => (built table member).1)
      (fun table member => (built table member).2) behind
  apply Finds.next
  intro location
  apply Finds.bind h.commonTables
  intro tables built
  apply Finds.attemptNext h.queryChain
  · dsimp only
    split
    · exact .giveUp
    · have bare : Built reads (n + 1) (.query { location }) := by
        apply Built.select <;> first | rfl | nofun
      exact .pure (headed built bare)
  · intro query behind
    exact .pure (headed built behind)

end Clauses

end LevelBuilds

/-- The grammar builds with as many levels as it has. -/
theorem levelBuilds (reads : Identifier → Prop) (n : Nat) : LevelBuilds reads n (level n) := by
  induction n with
  | zero => exact ⟨.tooDeep, .tooDeep, .tooDeep, .tooDeep, .tooDeep⟩
  | succ n ih =>
      exact ⟨ih.queryStatement, ih.tableSource, ih.disjunction, ih.negations, ih.signs⟩

/-! Scripts. -/

namespace Finds

variable {reads : Identifier → Prop}

theorem query : Builds reads nestingLimit .query query := by
  apply bind (levelBuilds reads nestingLimit).query.attempt
  intro query? built
  apply next
  intro _
  exact ofOption built

theorem statement :
    Finds reads (fun r => ∀ q ∈ r.1, Built reads nestingLimit (.query q)) statement := by
  apply next
  intro _
  split
  · exact pure nofun
  · apply next
    intro _
    split
    · exact pure nofun
    · apply next
      intro _
      split
      · apply bind query.attempt
        intro query? built
        exact pure built
      · exact next fun _ => pure nofun

theorem script :
    Finds reads (fun queries => ∀ q ∈ queries, Built reads nestingLimit (.query q)) script :=
  collect statement

end Finds

end QueryNames.Grammar.Parser

namespace QueryNames.ParseResult

open Grammar

variable {reads : Identifier → Prop} {stream : TokenStream}

theorem built_ofBatch (legible : ∀ t ∈ stream.tokens, t.Legible reads) :
    ∀ q ∈ (ofBatch stream).script.queries, Built reads nestingLimit (.query q) := by
  let s : State := ⟨.ofTokens stream.tokens, stream.errors.reverse⟩
  have ahead : s.Legible reads := by
    intro t member
    cases stop : t.isEnd with
    | true => exact Token.legible_of_isEnd stop
    | false =>
        have inside : t ∈ s.cursor.tokens.filter (!·.isEnd) :=
          List.mem_filter.2 ⟨member, by simp [stop]⟩
        rw [Cursor.filter_tokens_ofTokens] at inside
        exact legible t (List.mem_filter.1 inside).1
  rcases run : Parser.script s with ⟨_ | queries, s'⟩
  · simp [ofBatch, s, run]
  · have script : (ofBatch stream).script.queries = queries := by simp [ofBatch, s, run]
    rw [script]
    exact Parser.Finds.script.found ahead run

/-- All queries are built with as many levels as the grammar has, of what the tokens hold. -/
theorem built_ofTokens (legible : ∀ t ∈ stream.tokens, t.Legible reads) :
    ∀ q ∈ (ofTokens stream).script.queries, Built reads nestingLimit (.query q) := by
  intro q member
  obtain ⟨_, among, inBatch⟩ := List.mem_flatMap.1 member
  obtain ⟨batch, isBatch, rfl⟩ := List.mem_map.1 among
  refine built_ofBatch (fun t within => ?_) q inBatch
  cases stop : t.isEnd with
  | true => exact Token.legible_of_isEnd stop
  | false =>
      have content : t ∈ Batch.content (Batch.ofTokens stream.tokens) :=
        List.mem_flatMap.2 ⟨batch, isBatch, List.mem_filter.2 ⟨within, by simp [stop]⟩⟩
      rw [Batch.content_ofTokens] at content
      exact legible t (List.mem_filter.1 content).1

end QueryNames.ParseResult
