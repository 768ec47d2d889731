import QueryNames.Grammar.Script
import QueryNames.Proofs.Depth.Expression
import QueryNames.Proofs.Stepwise.Query

/-!
Table sources and queries come back to the depth where they begin. Main statement: so does what any
level reads, except where a cast is not complete.
-/

namespace QueryNames.Grammar.Parser

variable {stretch : Stretch} {low : Nat}

namespace KeepsFrom

variable {A : Cursor → Prop}

theorem tableLabel : Keeps stretch low tableLabel := by
  refine bind (acceptKeyword nofun) fun _ => ?_
  split
  · refine identifier.attempt.bind fun label? => ?_
    cases label? with
    | none => exact reportMissing.bind fun _ => pure
    | some label => exact pure
  · refine look fun _ => ?_
    split
    · exact pure
    · exact always identifier.attempt

theorem endsTable_of_from {t : Token} (kind : t.kind = .keyword .from) : endsTable t = true := by
  simp [endsTable, endsItem_of_from kind]

theorem skipHints : Keeps stretch low skipHints := by
  have kind_of (t next : Token)
      (hints : (t.isKeyword .with && next.isPunctuation .leftParen) = true) :
      t.kind = .keyword .with :=
    Token.isKeyword_iff.1 (Bool.and_eq_true_iff.1 hints).1
  refine look fun next => bind (accept (fun t hints => ?_) (fun _ t hints => ?_)) fun _ => ?_
  · exact isParen_eq_false (kind_of t next hints) rfl
  · simp [kind_of t next hints]
  · refine (onlyIf skipParenthesized).bind fun _ => acceptWord.bind fun _ => ?_
    exact bind (onlyIf (skipUntil fun _ _ => endsTable_of_from)) fun _ => pure

/-- Two tokens whose kinds are known. -/
theorem advanceOverTwo {f : Unit → Parser β} {j k : TokenKind}
    (is : ∀ c, A c → c.current.kind = j ∧ (c.peek 1).kind = k)
    (firstPlain : j.isPlain = true) (secondPlain : k.isPlain = true)
    (rest : Keeps stretch low (f ())) :
    KeepsFrom stretch low A (Parser.advance >>= fun _ => Parser.advance >>= f) := by
  intro depth deep
  refine .bind (Q := fun _ s => Within stretch depth s ∧ s.cursor.current.kind = k)
    (.of (.move fun s start => ⟨?_, ?_⟩)) fun _ => ?_
  · exact start.1.pass (isParen_eq_false (is _ start.2).1 firstPlain) fun _ =>
      ne_from (is _ start.2).1 firstPlain
  · rw [start.1.current_advance]
    exact (is _ start.2).2
  · exact (advanceOver (fun _ => id) secondPlain).bind (fun _ => rest) depth deep

/-- What begins a join operator is a keyword, and an `APPLY` stands behind it if it says so. -/
theorem kind_of_joinKind? {t next : Token} {kind : JoinKind}
    (found : joinKind? t next = some kind) :
    (∃ k, t.kind = .keyword k ∧ k ≠ .from) ∧
      (kind = .crossApply ∨ kind = .outerApply → next.kind = .identifier) := by
  unfold joinKind? at found
  split at found <;> rename_i is
  · cases found
    exact ⟨⟨_, is, nofun⟩, by simp⟩
  · cases found
    exact ⟨⟨_, is, nofun⟩, by simp⟩
  · cases found
    exact ⟨⟨_, is, nofun⟩, by simp⟩
  · cases found
    exact ⟨⟨_, is, nofun⟩, by simp⟩
  · cases found
    exact ⟨⟨_, is, nofun⟩, by simp⟩
  · cases found
    refine ⟨⟨_, is, nofun⟩, fun applies => ?_⟩
    split at applies
    · exact kind_of_isWord ‹_›
    · simp at applies
  · refine ⟨⟨_, is, nofun⟩, fun _ => ?_⟩
    split at found
    · exact kind_of_isWord ‹_›
    · contradiction
  · contradiction

theorem kind_of_isJoinHint {t : Token} (hint : isJoinHint t = true) :
    t.kind = .keyword .merge ∨ t.kind = .identifier := by
  simp only [isJoinHint, Bool.or_eq_true] at hint
  rcases hint with ((merge | word) | word) | word
  · exact .inl (Token.isKeyword_iff.1 merge)
  · exact .inr (kind_of_isWord word)
  · exact .inr (kind_of_isWord word)
  · exact .inr (kind_of_isWord word)

theorem joinOperator? : Keeps stretch low joinOperator? := by
  refine look fun t => look fun next => ?_
  cases found : joinKind? t next with
  | none => exact pure
  | some kind =>
      obtain ⟨⟨k, is, other⟩, apply_⟩ := kind_of_joinKind? found
      have here (c : Cursor) (start : (True ∧ c.current = t) ∧ c.peek 1 = next) :
          c.current.kind = .keyword k := start.1.2 ▸ is
      dsimp only
      split
      · rename_i applies
        exact advanceOverTwo (k := .identifier)
          (fun c start => ⟨here c start, start.2 ▸ apply_ (by simpa using applies)⟩)
          (isPlain_keyword other) rfl pure
      · refine acceptKeywordElse nofun pure ?_
        refine bind (advanceOver here (isPlain_keyword other)) fun _ => ?_
        refine bind (acceptKeyword nofun) fun _ =>
          bind (accept (fun t hint => ?_) (fun _ t hint => ?_)) fun _ => ?_
        · rcases kind_of_isJoinHint hint with is | is <;> exact isParen_eq_false is rfl
        · rcases kind_of_isJoinHint hint with is | is <;> simp [is]
        · exact bind (succeeds (requireKeyword nofun)) fun _ => pure

theorem columnLabel : Keeps stretch low columnLabel := by
  refine bind (acceptKeyword nofun) fun explicit => look fun t => ?_
  split
  · exact always identifier.attempt
  · rename_i kind
    exact bind (advanceOver (k := .stringLiteral) (fun c start => start.2 ▸ kind) rfl) fun _ => pure
  · exact bind (onlyIf reportMissing) fun _ => pure

theorem split_of_startsWithQualifiedStar {tokens : List Token}
    (starts : startsWithQualifiedStar tokens = true) :
    ∃ name period t rest, tokens = name :: period :: t :: rest ∧ name.kind = .identifier ∧
      period.kind = .punctuation .period ∧
      (t.kind = .star ∨ startsWithQualifiedStar (t :: rest) = true) := by
  unfold startsWithQualifiedStar at starts
  split at starts
  · rename_i name period t rest
    simp only [Bool.and_eq_true, Bool.or_eq_true, beq_iff_eq, Token.isPunctuation] at starts
    exact ⟨name, period, t, rest, rfl, starts.1.1, starts.1.2, starts.2⟩
  · contradiction

/-- A star, or names and periods up to one. -/
def StarAhead (tokens : List Token) : Prop :=
  tokens.head?.any (·.kind == .star) = true ∨ startsWithQualifiedStar tokens = true

/-- A period, and what may stand behind it. -/
def PeriodAhead (tokens : List Token) : Prop :=
  ∃ period rest, tokens = period :: rest ∧ period.kind = .punctuation .period ∧ StarAhead rest

theorem StarAhead.kind {c : Cursor} (ahead : StarAhead c.tokens) :
    c.current.kind = .identifier ∨ c.current.kind = .star := by
  rcases ahead with star | named
  · exact .inr (by simpa [Cursor.tokens] using star)
  · obtain ⟨name, period, t, rest, split, kind, -⟩ := split_of_startsWithQualifiedStar named
    obtain rfl : c.current = name := (List.cons.inj split).1
    exact .inl kind

/-- Behind a name there is a period. -/
theorem StarAhead.name {c : Cursor} (ahead : StarAhead c.tokens)
    (kind : c.current.kind = .identifier) : PeriodAhead c.advance.tokens := by
  rcases ahead with star | named
  · simp [Cursor.tokens, kind] at star
  · obtain ⟨name, period, t, rest, split, -, isPeriod, further⟩ :=
      split_of_startsWithQualifiedStar named
    have behind : c.ahead = period :: t :: rest := (List.cons.inj split).2
    have step : c.advance = ⟨period, t :: rest⟩ := by
      simp [Cursor.advance, Cursor.isAtEnd, Token.isEnd, kind, behind]
    rw [step]
    exact ⟨period, t :: rest, rfl, isPeriod, by simpa [StarAhead] using further⟩

theorem PeriodAhead.kind {c : Cursor} (ahead : PeriodAhead c.tokens) :
    c.current.kind = .punctuation .period := by
  obtain ⟨period, rest, split, kind, -⟩ := ahead
  rwa [(List.cons.inj split).1]

theorem PeriodAhead.behind {c : Cursor} (ahead : PeriodAhead c.tokens) :
    StarAhead c.advance.tokens := by
  have kind := ahead.kind
  obtain ⟨period, rest, split, -, further⟩ := ahead
  obtain rfl : c.ahead = rest := (List.cons.inj split).2
  cases behind : c.ahead with
  | nil =>
      rw [behind] at further
      simp [StarAhead, startsWithQualifiedStar] at further
  | cons t ts =>
      have step : c.advance = ⟨t, ts⟩ := by
        simp [Cursor.advance, Cursor.isAtEnd, Token.isEnd, kind, behind]
      rwa [step, Cursor.tokens, ← behind]

section Passing

variable {I : State → Prop} {P : Identifier → Prop}
  (passes : ∀ s, I s → s.cursor.current.kind = .identifier ∨
      s.cursor.current.kind = .punctuation .period ∨ s.cursor.current.kind = .star →
    I { s with cursor := s.cursor.advance })
  (parts : ∀ s, I s → s.cursor.current.kind = .identifier → P (.ofToken s.cursor.current))

include passes

include parts in
/-- An identifier is passed, if there is one. -/
theorem starName_runs (names : List Identifier) :
    Triple (fun s => (I s ∧ StarAhead s.cursor.tokens) ∧ ∀ i ∈ names, P i)
      (Parser.attempt Parser.identifier)
      (fun part? s => (I s ∧ if part?.isSome = true then PeriodAhead s.cursor.tokens
        else StarAhead s.cursor.tokens) ∧ ∀ i ∈ names ++ part?.toList, P i) I := by
  rintro s ⟨⟨holds, ahead⟩, known⟩
  simp only [Parser.attempt, identifier_apply]
  by_cases kind : s.cursor.current.kind = .identifier
  · rw [if_pos kind]
    refine ⟨⟨passes s holds (.inl kind), ahead.name kind⟩, ?_⟩
    simpa [or_imp, forall_and] using And.intro known (parts s holds kind)
  · rw [if_neg kind]
    exact ⟨⟨holds, ahead⟩, by simpa using known⟩

include parts in
/-- It is passed together with the period behind it. -/
theorem starPart_runs (names : List Identifier) :
    Triple (fun s => (I s ∧ StarAhead s.cursor.tokens) ∧ ∀ i ∈ names, P i) starPart
      (fun r s => (I s ∧ StarAhead s.cursor.tokens) ∧ ∀ i ∈ names ++ r.1.toList, P i) I := by
  refine .bind (starName_runs passes parts names) fun part? => ?_
  cases part? with
  | none => exact .pure fun _ => id
  | some part =>
      refine .bind (Q := fun _ s => (I s ∧ StarAhead s.cursor.tokens) ∧ ∀ i ∈ names ++ [part], P i)
        (.move fun s start => ?_) fun _ => .pure fun _ => id
      obtain ⟨⟨holds, ahead⟩, known⟩ := start
      exact ⟨⟨passes s holds (.inr (.inl ahead.kind)), ahead.behind⟩, known⟩

include parts in
/-- Whatever names, periods and stars that are passed leave true is true behind the item, which has
no part but names that were passed. -/
theorem qualifiedStar_runs :
    Triple (fun s => I s ∧ startsWithQualifiedStar s.cursor.tokens = true) Parser.qualifiedStar
      (fun item s => I s ∧ ∃ names location, (∀ i ∈ names, P i) ∧
        item = .qualifiedWildcard ⟨QualifiedName.ofList? names, .wildcard, location⟩) I := by
  rw [qualifiedStar_eq]
  refine .bind (Q := fun _ s => (I s ∧ StarAhead s.cursor.tokens) ∧ ∀ i ∈ [], P i)
    (.look fun s start => ⟨⟨start.1, .inr start.2⟩, nofun⟩) fun location => ?_
  refine .bind (.collect (starPart_runs passes parts) []) fun names => ?_
  refine .bind (Q := fun _ s => I s ∧ ∀ i ∈ names, P i) (.move ?_)
    fun _ => .pure fun _ found => ⟨found.1, names, location, found.2, rfl⟩
  rintro s ⟨⟨holds, ahead⟩, known⟩
  exact ⟨passes s holds (ahead.kind.imp_right .inr), known⟩

theorem qualifiedStar_keeps :
    Triple (fun s => I s ∧ startsWithQualifiedStar s.cursor.tokens = true) Parser.qualifiedStar
      (fun _ => I) I :=
  (qualifiedStar_runs (P := fun _ => True) passes fun _ _ _ => trivial).weaken (fun _ => id)
    (fun _ _ => And.left) (fun _ => id)

end Passing

theorem qualifiedStar :
    KeepsFrom stretch low (fun c => startsWithQualifiedStar c.tokens = true) qualifiedStar := by
  refine fun depth deep => .of (qualifiedStar_keeps fun s within is => ?_)
  rcases is with kind | kind | kind
  · exact within.pass (isParen_eq_false kind rfl) (by simp [kind])
  · exact within.pass (isParen_eq_false kind rfl) (by simp [kind])
  · exact within.pass (isParen_eq_false kind rfl) (by simp [kind])

/-- `label =` -/
theorem assigned {f : Option Identifier → Unit → Parser β}
    (is : ∀ c, A c → c.current.kind = .identifier ∧ (c.peek 1).kind = .operator .eq)
    (rest : ∀ label?, Keeps stretch low (f label? ())) :
    KeepsFrom stretch low A
      (Parser.attempt Parser.identifier >>= fun label? => Parser.advance >>= f label?) := by
  intro depth deep
  refine .bind (Q := fun _ s => Within stretch depth s ∧ s.cursor.current.kind = .operator .eq)
    (.of ?_) fun label? => (advanceOver (k := .operator .eq) (fun _ => id) rfl).bind
      (fun _ => rest label?) depth deep
  rintro s ⟨within, here⟩
  obtain ⟨kind, behind⟩ := is _ here
  simp only [Parser.attempt, identifier_apply, if_pos kind]
  refine ⟨within.pass (isParen_eq_false kind rfl) (by simp [kind]), ?_⟩
  rwa [within.current_advance]

/-- `WITH TIES` -/
theorem ties {next : Token} {f : Bool → Option Unit → Parser β}
    (is : ∀ c, A c → c.peek 1 = next) (rest : ∀ found u?, Keeps stretch low (f found u?)) :
    KeepsFrom stretch low A
      (Parser.accept (fun t => t.isKeyword .with && next.isWord "TIES") >>= fun found =>
        Parser.onlyIf found Parser.advance >>= f found) := by
  intro depth deep
  refine .bind (Q := fun found s => Within stretch depth s ∧
    (found = true → s.cursor.current.kind = .identifier))
    (.accept (fun s start found => ⟨?_, fun _ => ?_⟩) (fun s start _ => ⟨start.1, nofun⟩))
    fun found => ?_
  · have kind : s.cursor.current.kind = .keyword .with :=
      Token.isKeyword_iff.1 (Bool.and_eq_true_iff.1 found).1
    exact start.1.pass (isParen_eq_false kind rfl) (by simp [kind])
  · rw [start.1.current_advance, is _ start.2]
    exact kind_of_isWord (Bool.and_eq_true_iff.1 found).2
  · exact (onlyWhen fun yes =>
      advanceOver (A := fun c => found = true → c.current.kind = .identifier)
        (fun _ start => start yes) rfl).bind (rest found) depth deep

theorem intoClause : Keeps stretch low intoClause := by
  refine bind (acceptKeyword nofun) fun _ => ?_
  split
  · exact qualifiedName.attempt.bind fun name? => finishClause.bind fun _ => pure
  · exact pure

theorem skipOptions : Keeps stretch low skipOptions := by
  refine bind (acceptKeyword nofun) fun _ =>
    bind (onlyIf (skipUntil fun _ t kind => ?_)) fun _ =>
      bind (acceptKeyword nofun) fun _ => bind (onlyIf (look fun _ => ?_)) fun _ => pure
  · simp [endsClause_of_from kind, Token.isKeyword, kind]
  · split
    · exact skipParenthesized
    · exact reportMissing

theorem setOperator? : Keeps stretch low setOperator? := by
  refine bind (acceptKeyword nofun) fun _ => ?_
  split
  · refine bind (acceptKeyword nofun) fun _ => ?_
    split <;> exact pure
  · refine bind (acceptKeyword nofun) fun _ => ?_
    split
    · exact pure
    · refine bind (acceptKeyword nofun) fun _ => ?_
      split <;> exact pure

end KeepsFrom

theorem EntersFrom.commonTableHead :
    EntersFrom stretch low (fun _ => True) commonTableHead :=
  .after .requireIdentifier fun _ => .after .columnNames fun _ =>
    .after (.requireKeyword nofun) fun _ => .map .requirePunctuation

namespace LevelKeeps

variable {inner : Level} (h : LevelKeeps stretch inner)

/-! Table sources. -/

include h

theorem derivedTable :
    KeepsFrom stretch low (fun c => c.current.kind = .punctuation .leftParen)
      (derivedTable inner) := by
  refine .group (.advance fun _ => id) fun _ => .step h.query.attempt fun query? => ?_
  refine .bind .closeParen fun _ => .bind .tableLabel fun label => ?_
  exact .bind (.onlyIf .reportMissing) fun _ => .bind .columnNames fun columns =>
    .bind .ofOption fun query => .pure

theorem parenthesizedSource :
    KeepsFrom stretch low (fun c => c.current.kind = .punctuation .leftParen)
      (parenthesizedSource inner) := by
  refine .group (.advance fun _ => id) fun _ => .step h.source.attempt fun source? => ?_
  exact .bind .closeParen fun _ => .bind .ofOption fun source => .pure

theorem namedSource : Keeps stretch low (namedSource inner) := by
  refine .bind .qualifiedName fun name => .ifOpening ?_ ?_
  · exact .bind h.arguments fun list => .bind .tableLabel fun label => .pure
  · exact .bind .tableLabel fun label => .bind .skipHints fun _ => .pure

theorem table : Keeps stretch low (table inner) := by
  refine .look fun t => ?_
  split
  · rename_i kind
    refine .look fun _ => ?_
    split
    · exact h.derivedTable.weaken fun c start => start.1.2 ▸ kind
    · exact h.parenthesizedSource.weaken fun c start => start.1.2 ▸ kind
  · rename_i kind
    exact .bind (.advanceOver (k := .variable) (fun c start => start.2 ▸ kind) rfl) fun _ =>
      .bind .tableLabel fun label => .pure
  · exact .always h.namedSource
  · exact .missing

theorem joinCondition (kind : JoinKind) : Keeps stretch low (joinCondition inner kind) := by
  dsimp only [Parser.joinCondition]
  split
  · exact .pure
  · refine .bind (.succeeds (.requireKeyword nofun)) fun _ => ?_
    split
    · exact .bind (.attempt h.expression.deeper) fun condition? =>
        .bind (.onlyIf (.skipUntil fun _ _ => KeepsFrom.endsTable_of_from)) fun _ => .pure
    · exact .pure

theorem skipJoin : Keeps stretch low (skipJoin inner) :=
  .bind (.skipUntil fun _ _ => KeepsFrom.endsTable_of_from) fun _ =>
    .bind (.acceptKeyword nofun) fun _ => .bind (.onlyIf h.expression.deeper) fun _ => .pure

theorem join (left : TableSource) : Keeps stretch low (join inner left) := by
  refine .bind .joinOperator? fun kind? => ?_
  cases kind? with
  | none => exact .pure
  | some kind =>
      refine .bind h.table.attempt fun right? => ?_
      cases right? with
      | none => exact .bind h.skipJoin fun _ => .pure
      | some right => exact .bind (h.joinCondition kind) fun condition? => .pure

theorem tableSource : Keeps stretch low (tableSource inner) :=
  .bind h.table fun left => .iterate h.join left

theorem sourceList : Keeps stretch low (sourceList inner) :=
  .commaList h.tableSource fun _ _ => KeepsFrom.endsItem_of_from

/-! The select list. -/

theorem selectItem : Keeps stretch low (selectItem inner) := by
  refine .look fun t => .look fun next => ?_
  dsimp only
  split
  · rename_i kind
    refine .bind (.advanceOver (k := .star) (fun c start => ?_) rfl) fun _ => .pure
    rw [start.1.2]
    simpa using kind
  · split
    · rename_i assigns
      simp only [Bool.and_eq_true, beq_iff_eq] at assigns
      exact .assigned (fun c start => ⟨start.1.2 ▸ assigns.1, start.2 ▸ assigns.2⟩) fun label? =>
        .bind h.expression.deeper fun e => .pure
    · split
      · rename_i assigns
        simp only [Bool.and_eq_true, beq_iff_eq] at assigns
        exact .advanceOverTwo (j := .variable) (k := .operator .eq)
          (fun c start => ⟨start.1.2 ▸ assigns.1, start.2 ▸ assigns.2⟩) rfl rfl
          (.bind h.expression.deeper fun e => .pure)
      · refine .look fun star => ?_
        split
        · refine KeepsFrom.qualifiedStar.weaken ?_
          rintro c ⟨-, rfl⟩
          assumption
        · exact .bind (.always h.expression.deeper) fun e => .bind .columnLabel fun label? => .pure

theorem selectList : Keeps stretch low (selectList inner) := by
  refine .look fun _ => ?_
  split
  · exact .bind .reportMissing fun _ => .pure
  · exact .always (.commaList h.selectItem fun _ _ => KeepsFrom.endsItem_of_from)

theorem topQuantity : Keeps stretch low (topQuantity inner) := by
  refine .ifOpening ?_ h.primary
  exact .step h.expression.deeper.attempt fun e? => .bind .closeParen fun _ => .ofOption

theorem top : KeepsFrom stretch low (fun c => c.current.kind = .keyword .top) (top inner) := by
  refine .bind (.advanceOver (fun _ => id) rfl) fun _ => ?_
  refine .bind h.topQuantity fun quantity => .bind (.acceptKeyword nofun) fun percent => ?_
  exact .look fun next => .ties (fun _ start => start.2) fun withTies _ => .pure

/-! Clauses. -/

theorem fromClause : Keeps stretch 1 (fromClause inner) := by
  refine .bind (.acceptKeyword nofun) fun _ => ?_
  split
  · exact h.sourceList
  · exact .pure

theorem expressionClause {k : Keyword} (other : k ≠ .from) :
    Keeps stretch low (expressionClause inner k) := by
  refine .bind (.acceptKeyword fun _ => other) fun _ => ?_
  split
  · exact .bind (.attempt h.expression.deeper) fun e? => .bind .finishClause fun _ => .pure
  · exact .pure

theorem groupClause : Keeps stretch low (groupClause inner) := by
  refine .bind (.acceptKeyword nofun) fun _ => ?_
  split
  · refine .bind (.attempt (.bind (.requireKeyword nofun) fun _ =>
      .bind (.acceptKeyword nofun) fun _ => h.expressionList)) fun list? => ?_
    exact .bind .finishClause fun _ => .pure
  · exact .pure

theorem orderClause : Keeps stretch low (orderClause inner) := by
  refine .bind (.acceptKeyword nofun) fun _ => ?_
  split
  · refine .bind (.attempt (.bind (.requireKeyword nofun) fun _ => h.orderList)) fun list? => ?_
    refine .bind .acceptWord fun _ => ?_
    refine .bind (.onlyIf (.skipUntil fun _ _ => KeepsFrom.endsClause_of_from)) fun _ => ?_
    exact .bind .finishClause fun _ => .pure
  · exact .pure

theorem selectQuery :
    KeepsFrom stretch 1 (fun c => c.current.kind = .keyword .select) (selectQuery inner) := by
  refine .look fun location => .bind (.advanceOver (fun _ start => start.1) rfl)
    fun _ => ?_
  refine .bind (.acceptKeyword nofun) fun distinct => ?_
  refine .bind (.onlyIf (.acceptKeyword nofun)) fun _ => .look fun limited => ?_
  refine .bind (.onlyWhen fun yes => h.top.weaken fun c start => ?_) fun top? => ?_
  · rw [yes] at start
    exact Token.isKeyword_iff.1 start.2
  · refine .bind h.selectList fun items => .bind .intoClause fun into => ?_
    refine .bind h.fromClause fun sources => .bind (h.expressionClause nofun) fun condition => ?_
    refine .bind h.groupClause fun groupBy => .bind (h.expressionClause nofun) fun having => ?_
    exact .bind h.orderClause fun orderBy => .bind .skipOptions fun _ => .pure

/-! Whole queries. -/

theorem queryTerm : Keeps stretch 1 (queryTerm inner) := by
  refine .look fun select => ?_
  split
  · refine h.selectQuery.weaken fun c start => ?_
    simp_all [Token.isKeyword]
  · refine .look fun opens => ?_
    split
    · refine .group (.advance fun c start => ?_) fun _ => .step h.query.attempt fun query? => ?_
      · simp_all [Cursor.opensQueryDeep, Token.isPunctuation]
      · exact .bind .closeParen fun _ => .ofOption
    · exact .missing

theorem queryChain : Keeps stretch 1 (queryChain inner) := .chainRight h.queryTerm .setOperator?

theorem commonTableQuery : Keeps stretch 1 (commonTableQuery inner) := by
  refine .look fun _ => ?_
  split
  · exact .always h.query
  · exact .missing

theorem commonTable : Keeps stretch 1 (commonTable inner) := by
  have stepwise := h.stepwise
  refine fun depth deep => .of_deep (fun _ => And.left) fun out =>
    .bind (Q := fun head? s => if head?.isSome = true then Within stretch (depth + 1) s
      else Within stretch depth s) (.attempt (EntersFrom.commonTableHead depth deep))
      fun head? => ?_
  cases head? with
  | none =>
      exact (KeepsFrom.bind (A := fun _ => True) (.skipUntil fun none => by omega) fun _ =>
        .pure).weaken (fun _ => id) depth deep |>.weaken (fun _ start => ⟨start, trivial⟩)
        (fun _ _ => id) (fun _ => id)
  | some head =>
      have rest : Leaves stretch 1 (do
          let query? ← attempt (Parser.commonTableQuery inner)
          closeParen
          let more ← acceptPunctuation .comma
          return (query?.map fun query => (⟨head.1, head.2, query⟩ : CommonTable), more)) :=
        .step h.commonTableQuery.attempt fun query? => .bind .closeParen fun _ =>
          .bind (.acceptPunctuation nofun nofun) fun more => .pure
      exact rest depth deep out

theorem commonTables : Keeps stretch 1 (commonTables inner) := by
  refine .bind (.acceptKeyword nofun) fun _ => ?_
  split
  · exact .collect h.commonTable
  · exact .pure

theorem queryStatement : Keeps stretch 1 (queryStatement inner) := by
  refine .look fun location => .bind (.always h.commonTables) fun tables => ?_
  refine .bind h.queryChain.attempt fun query? => ?_
  cases query? with
  | some query => exact .pure
  | none =>
      dsimp only
      split
      · exact .giveUp
      · exact .pure

end LevelKeeps

theorem levelKeeps (n : Nat) : LevelKeeps stretch (level n) := by
  induction n with
  | zero =>
      have ends : (0 : Nat) = 0 → ∀ t : Token, t.kind = .keyword .from → endsItem t = true :=
        fun _ _ => KeepsFrom.endsItem_of_from
      exact ⟨⟨0, rfl⟩, .tooDeep nofun, .tooDeep nofun, .tooDeep ends, .tooDeep ends, .tooDeep ends⟩
  | succ n ih =>
      exact ⟨⟨n + 1, rfl⟩, ih.queryStatement, ih.tableSource, ih.disjunction, ih.negations,
        ih.signs⟩

end QueryNames.Grammar.Parser
