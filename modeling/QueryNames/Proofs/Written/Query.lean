import QueryNames.Proofs.Grammar.Script
import QueryNames.Proofs.Written.Reading

/-!
Reading written queries `SELECT items FROM sources [WHERE condition]`. Main statements: such a query
is read whole before a closing parenthesis or the end of the input, and a text that is nothing else
has it as its only query and no errors.
-/

namespace QueryNames

namespace Grammar

theorem kind_ne_of_endsItem {t : Token} {k : TokenKind} (ends : endsItem t = true)
    (other : endsItem ⟨k, "", .none⟩ = false) : t.kind ≠ k := by
  rintro rfl
  exact Bool.false_ne_true (other.symm.trans ends)

/-- What ends a query inside of another, or at the end of a text. -/
def EndsQuery (t : Token) : Prop := t.kind = .endOfInput ∨ t.kind = .punctuation .rightParen

namespace EndsQuery

variable {t : Token}

theorem kind_ne {k : TokenKind} (ends : EndsQuery t)
    (other : k ≠ .endOfInput ∧ k ≠ .punctuation .rightParen) : t.kind ≠ k := by
  rintro rfl
  exact ends.elim other.1 other.2

theorem endsClause (ends : EndsQuery t) : endsClause t = true := by
  rcases ends with is | is <;> simp [Grammar.endsClause, is]

theorem endsList (ends : EndsQuery t) : Parser.EndsList t :=
  ⟨by simp [endsItem, ends.endsClause], ends.kind_ne (by decide)⟩

end EndsQuery

namespace Parser

variable {inner : Level} {s : State} {ts : List Token}

theorem finishClause_eq (ends : endsClause s.cursor.current = true) :
    finishClause true s = (some (), s) := by
  have quiet : onlyIf (true && !endsClause s.cursor.current) (reportSurplus .endOfClause) s =
      (some none, s) := by
    rw [ends]
    rfl
  rw [finishClause, bind_current, bind_some quiet, skipUntil_stop ends (kind_of_endsClause ends)]

theorem expressionClause_yields {k : Keyword} {e? : Option Expression}
    (clause : YieldsClause k inner.expression Strength.disjunction.Stops ts e?) :
    Yields (expressionClause inner k) ts e? EndsQuery := by
  intro s ends
  cases clause with
  | absent => exact expressionClause_absent rfl (ends.kind_ne (by simp))
  | present is yields =>
      have stops : Strength.disjunction.Stops s.cursor.current :=
        Strength.stops_of_endsItem ends.endsList.1
      rw [expressionClause, bind_some (acceptKeyword_prepend is), if_pos rfl,
        bind_some (yields.attempt s stops)]
      dsimp only [Option.isSome]
      rw [bind_some (finishClause_eq ends.endsClause)]
      rfl

/-! Items. -/

theorem selectItem_star {star : Token} (isStar : star.kind = .star) :
    Yields (selectItem inner) [star] (.wildcard star.location) (endsItem ·) := by
  intro s _
  have found : ((s.prepend [star]).cursor.current.kind == .star) = true := by simp [isStar]
  rw [selectItem, bind_current, bind_peek, if_pos found,
    bind_some (advance_prepend (by simp [isStar]))]
  rfl

theorem columnLabel_absent (ends : endsItem s.cursor.current = true) :
    columnLabel s = (some none, s) := by
  rw [columnLabel, bind_some (acceptKeyword_absent rfl (kind_ne_of_endsItem ends rfl)),
    bind_current]
  cases kind : s.cursor.current.kind with
  | identifier => exact absurd kind (kind_ne_of_endsItem ends rfl)
  | stringLiteral => exact absurd kind (kind_ne_of_endsItem ends rfl)
  | _ => rfl

theorem startsWithQualifiedStar_of_kind {t : Token} (noName : t.kind ≠ .identifier) :
    startsWithQualifiedStar (t :: ts) = false := by
  rcases ts with _ | ⟨u, _ | ⟨v, rest⟩⟩
  · rfl
  · rfl
  · simp [startsWithQualifiedStar, noName]

/-- An expression is an item by itself, if it is no star and is not assigned. -/
theorem selectItem_run {s' : State} {e : Expression} (noStar : s.cursor.current.kind ≠ .star)
    (noStars : startsWithQualifiedStar s.cursor.tokens = false)
    (unassigned : (s.cursor.peek 1).kind ≠ .operator .eq)
    (run : inner.expression s = (some e, s')) (ends : endsItem s'.cursor.current = true) :
    selectItem inner s = (some (.expression e none), s') := by
  have other : (s.cursor.current.kind == .star) = false := by simpa using noStar
  have noAssignment : ((s.cursor.peek 1).kind == .operator .eq) = false := by simpa using unassigned
  rw [selectItem, bind_current, bind_peek, other, noAssignment]
  simp only [Bool.and_false, Bool.false_eq_true, if_false]
  rw [bind_look, noStars, if_neg Bool.false_ne_true, bind_some run,
    bind_some (columnLabel_absent ends)]
  rfl

theorem selectItem_expression {e : Expression} (noStar : Next ts (endsItem ·) (·.kind ≠ .star))
    (noStars : ∀ s : State, endsItem s.cursor.current = true →
      startsWithQualifiedStar (s.prepend ts).cursor.tokens = false)
    (unassigned : ∀ s : State, endsItem s.cursor.current = true →
      ((s.prepend ts).cursor.peek 1).kind ≠ .operator .eq)
    (yields : Yields inner.expression ts e Strength.disjunction.Stops) :
    Yields (selectItem inner) ts (.expression e none) (endsItem ·) := by
  intro s ends
  exact selectItem_run (noStar.current ends) (noStars s ends) (unassigned s ends)
    (yields s (Strength.stops_of_endsItem ends)) ends

/-! Clauses. -/

/-- An item, or a star, can begin with the token, and no word that stands before the items is it. -/
def BeginsItems (t : Token) : Prop :=
  endsClause t = false ∧ ∀ k ∈ [Keyword.distinct, .all, .top], t.kind ≠ .keyword k

section Query

variable {first middle : Token} {is ss ws : List Token} {items : List SelectItem}
  {sources : List TableSource} {condition : Option Expression}

/-- A query of items and what it reads them from, up to its condition, with that, and nothing may
stand behind it. -/
theorem selectQuery_parts {s₁ s₂ s' : State} (isSelect : first.kind = .keyword .select)
    (begins : BeginsItems s.cursor.current)
    (itemsRead : commaList endsItem (selectItem inner) s = (some items, s₁))
    (noInto : s₁.cursor.current.kind ≠ .keyword .into)
    (fromRead : fromClause inner s₁ = (some sources, s₂))
    (clause : expressionClause inner .where s₂ = (some condition, s'))
    (ends : EndsQuery s'.cursor.current) :
    selectQuery inner (s.prepend [first]) =
      (some { location := first.location, items, sources, condition }, s') := by
  obtain ⟨noClause, noWord⟩ := begins
  have noDistinct := acceptKeyword_absent rfl (noWord .distinct (by decide))
  have noAll : onlyIf (!false) (acceptKeyword .all) s = (some (some false), s) := by
    rw [Bool.not_false, onlyIf, if_pos rfl, attempt,
      acceptKeyword_absent rfl (noWord .all (by decide))]
  have noTop : s.cursor.current.isKeyword .top = false := by
    simpa [Token.isKeyword] using noWord .top (by decide)
  have listed : selectList inner s = (some items, s₁) := by
    rw [selectList, bind_check, noClause, if_neg Bool.false_ne_true]
    exact itemsRead
  rw [selectQuery, bind_place, bind_some (advance_prepend (by simp [isSelect]))]
  simp only [State.prepend_nil]
  rw [bind_some noDistinct, bind_some noAll, bind_check, noTop]
  rw [bind_some (show onlyIf false (top inner) _ = (some none, _) from rfl), bind_some listed,
    bind_some (intoClause_absent rfl noInto), bind_some fromRead, bind_some clause,
    bind_some (groupClause_absent rfl (ends.kind_ne (by decide))),
    bind_some (expressionClause_absent rfl (ends.kind_ne (by decide))),
    bind_some (orderClause_absent rfl (ends.kind_ne (by decide))),
    bind_some (skipOptions_absent rfl (ends.kind_ne (by decide)) (ends.kind_ne (by decide)))]
  rfl

theorem fromClause_yields (isFrom : middle.kind = .keyword .from)
    (sourcesRead : Yields (sourceList inner) ss sources EndsList) :
    Yields (fromClause inner) (middle :: ss) sources EndsList := by
  intro s follows
  rw [fromClause, bind_some (acceptKeyword_prepend isFrom), if_pos rfl]
  exact sourcesRead s follows

theorem selectQuery_run {s' : State} (isSelect : first.kind = .keyword .select)
    (begins : BeginsItems (s.prepend (is ++ middle :: ss)).cursor.current)
    (itemsRead : Yields (commaList endsItem (selectItem inner)) is items EndsList)
    (isFrom : middle.kind = .keyword .from)
    (sourcesRead : Yields (sourceList inner) ss sources EndsList)
    (follows : EndsList s.cursor.current)
    (clause : expressionClause inner .where s = (some condition, s'))
    (ends : EndsQuery s'.cursor.current) :
    selectQuery inner (s.prepend (first :: (is ++ middle :: ss))) =
      (some { location := first.location, items, sources, condition }, s') := by
  have beforeFrom : Next (middle :: ss) EndsList EndsList := by
    show EndsList middle
    simp [EndsList, endsItem, endsClause, isFrom, Keyword.endsClause]
  have noInto : (s.prepend (middle :: ss)).cursor.current.kind ≠ .keyword .into := by
    simp [isFrom]
  have read := selectQuery_parts isSelect begins (itemsRead.before beforeFrom follows) noInto
    (fromClause_yields isFrom sourcesRead s follows) clause ends
  rwa [State.prepend_prepend] at read

theorem selectQuery_yields (isSelect : first.kind = .keyword .select)
    (begins : Next (is ++ middle :: (ss ++ ws)) EndsQuery BeginsItems)
    (itemsRead : Yields (commaList endsItem (selectItem inner)) is items EndsList)
    (isFrom : middle.kind = .keyword .from)
    (sourcesRead : Yields (sourceList inner) ss sources EndsList)
    (clause : YieldsClause .where inner.expression Strength.disjunction.Stops ws condition) :
    Yields (selectQuery inner) (first :: (is ++ middle :: (ss ++ ws)))
      { location := first.location, items, sources, condition } EndsQuery := by
  intro s ends
  have follows : Next ws EndsQuery EndsList := by
    cases clause with
    | absent => exact fun t => EndsQuery.endsList
    | @present t ts e isWhere =>
        show EndsList t
        simp [EndsList, endsItem, endsClause, isWhere, Keyword.endsClause]
  have starts : BeginsItems ((s.prepend ws).prepend (is ++ middle :: ss)).cursor.current := by
    have first := begins.current ends
    rwa [State.prepend_prepend, List.append_assoc, List.cons_append]
  have run := selectQuery_run isSelect starts itemsRead isFrom sourcesRead (follows.current ends)
    (expressionClause_yields clause s ends) ends
  rwa [State.prepend_prepend, List.cons_append, List.append_assoc, List.cons_append] at run

end Query

/-- A query without common tables or a set operation is a whole statement. -/
theorem queryStatement_run {s s' : State} {q : Query}
    (isSelect : s.cursor.current.kind = .keyword .select)
    (run : selectQuery inner s = (some q, s')) (ends : EndsQuery s'.cursor.current)
    (alone : q.commonTables = []) : queryStatement inner s = (some q, s') := by
  have term : queryTerm inner s = (some q, s') := by
    have found : s.cursor.current.isKeyword .select = true := by simp [Token.isKeyword, isSelect]
    rw [queryTerm, bind_check, if_pos found, run]
  have chain : queryChain inner s = (some q, s') := by
    have noOperator : setOperator? s' = (some none, s') :=
      setOperator?_absent rfl (ends.kind_ne (by decide)) (ends.kind_ne (by decide))
        (ends.kind_ne (by decide))
    rw [queryChain, chainRight, term]
    simp only [noOperator]
  have noTables : commonTables inner s = (some [], s) := commonTables_absent isSelect (by decide)
  have tried : attempt (queryChain inner) s = (some (some q), s') := by
    rw [attempt, chain]
  rw [queryStatement, bind_place, bind_some noTables, bind_some tried]
  cases q
  cases alone
  rfl

theorem queryStatement_yields {first : Token} {q : Query} (isSelect : first.kind = .keyword .select)
    (yields : Yields (selectQuery inner) (first :: ts) q EndsQuery) (alone : q.commonTables = []) :
    Yields (queryStatement inner) (first :: ts) q EndsQuery :=
  fun s ends => queryStatement_run isSelect (yields s ends) ends alone

/-! A whole text. -/

/-- A query up to the end of the input is a whole script, with what there was to complain of. -/
theorem script_run {first stop : Token} {ts : List Token} {q : Query} {reported : List Diagnostic}
    (isSelect : first.kind = .keyword .select)
    (run : (level nestingLimit).query ⟨⟨first, ts ++ [stop]⟩, []⟩ =
      (some q, ⟨⟨stop, []⟩, reported⟩))
    (ends : stop.kind = .endOfInput) :
    script ⟨⟨first, ts ++ [stop]⟩, []⟩ = (some [q], ⟨⟨stop, []⟩, reported⟩) := by
  have isEnd : stop.isEnd = true := by simp [Token.isEnd, ends]
  have atEnd : (Cursor.mk stop []).isAtEnd = true := isEnd
  have tried : attempt query ⟨⟨first, ts ++ [stop]⟩, []⟩ =
      (some (some q), ⟨⟨stop, []⟩, reported⟩) := by
    have read : attempt (level nestingLimit).query ⟨⟨first, ts ++ [stop]⟩, []⟩ =
        (some (some q), ⟨⟨stop, []⟩, reported⟩) := by rw [attempt, run]
    have finished : finishStatement ⟨⟨stop, []⟩, reported⟩ =
        (some (), ⟨⟨stop, []⟩, reported⟩) := by
      rw [finishStatement, atStatementEnd, bind_look, atEnd]
      rfl
    rw [attempt, query, bind_some read, bind_some finished]
    rfl
  have goesOn : (Cursor.mk first (ts ++ [stop])).isAtEnd = false := by
    simp [Cursor.isAtEnd, Token.isEnd, isSelect]
  have starts : (Cursor.mk first (ts ++ [stop])).startsQuery = true := by
    simp [Cursor.startsQuery, isSelect]
  have noSemicolon : acceptPunctuation .semicolon ⟨⟨first, ts ++ [stop]⟩, []⟩ =
      (some false, ⟨⟨first, ts ++ [stop]⟩, []⟩) := acceptPunctuation_absent isSelect (by decide)
  have ended : collect statement ⟨⟨stop, []⟩, reported⟩ = (some [], ⟨⟨stop, []⟩, reported⟩) := by
    have noSemicolon' : acceptPunctuation .semicolon ⟨⟨stop, []⟩, reported⟩ =
        (some false, ⟨⟨stop, []⟩, reported⟩) := acceptPunctuation_absent ends (by decide)
    refine collect_stop (a := none) ?_
    rw [statement, bind_some noSemicolon', if_neg Bool.false_ne_true, bind_look, atEnd]
    rfl
  have shorter : (State.mk ⟨stop, []⟩ reported).remaining <
      (State.mk ⟨first, ts ++ [stop]⟩ []).remaining := by
    simp [State.remaining, Cursor.remaining]
  refine collect_more (?_ : _ = (some (some q, true), _)) shorter ended
  rw [statement, bind_some noSemicolon, if_neg Bool.false_ne_true, bind_look, goesOn,
    if_neg Bool.false_ne_true, bind_look, starts, if_pos rfl, bind_some tried]
  rfl

end Parser

end Grammar

/-- A query up to the end of the input is all that the tokens hold. -/
theorem ParseResult.ofTokens_run {first stop : Token} {ts : List Token} {q : Query}
    {reported : List Diagnostic} (isSelect : first.kind = .keyword .select)
    (whole : ∀ t ∈ ts, t.endsBatch = false) (ends : stop.kind = .endOfInput)
    (run : (Grammar.level Grammar.nestingLimit).query ⟨⟨first, ts ++ [stop]⟩, []⟩ =
      (some q, ⟨⟨stop, []⟩, reported⟩)) :
    ofTokens ⟨first :: ts ++ [stop], []⟩ =
      ⟨⟨[q]⟩, Diagnostic.sort (Diagnostic.sort reported.reverse)⟩ := by
  have isEnd : stop.isEnd = true := by simp [Token.isEnd, ends]
  have inside : ∀ t ∈ first :: ts, t.endsBatch = false :=
    List.forall_mem_cons.2 ⟨Grammar.endsBatch_of_keyword isSelect, whole⟩
  have closed : Grammar.Closed (Grammar.Cursor.mk first (ts ++ [stop])).tokens :=
    Grammar.closed_concat (first :: ts) isEnd
  have batch := ofBatch_script closed (Grammar.Parser.script_run isSelect run ends)
  have same : first :: ts ++ [stop] = (Grammar.Cursor.mk first (ts ++ [stop])).tokens := rfl
  rw [ofTokens_batch inside isEnd, same, batch, List.nil_append]

theorem ParseResult.ofTokens_query {first stop : Token} {ts : List Token} {q : Query}
    (isSelect : first.kind = .keyword .select) (whole : ∀ t ∈ ts, t.endsBatch = false)
    (ends : stop.kind = .endOfInput)
    (yields : Grammar.Parser.Yields (Grammar.level Grammar.nestingLimit).query (first :: ts) q
      Grammar.EndsQuery) :
    ofTokens ⟨first :: ts ++ [stop], []⟩ = ⟨⟨[q]⟩, []⟩ := by
  have run := yields ⟨⟨stop, []⟩, []⟩ (.inl ends)
  rw [Grammar.State.prepend_last] at run
  rw [ofTokens_run isSelect whole ends run, List.reverse_nil, Diagnostic.sort_nil,
    Diagnostic.sort_nil]

/-- Such a query is read from tokens that are read as its parts. -/
theorem ParseResult.ofTokens_select {first middle stop : Token} {is ss ws : List Token}
    {items : List SelectItem} {sources : List TableSource} {condition : Option Expression}
    (isSelect : first.kind = .keyword .select)
    (begins : Grammar.Next (is ++ middle :: (ss ++ ws)) Grammar.EndsQuery
      Grammar.Parser.BeginsItems)
    (itemsRead : Grammar.Parser.Yields (Grammar.Parser.commaList Grammar.endsItem
      (Grammar.Parser.selectItem (Grammar.level (Grammar.nestingLimit - 1)))) is items
      Grammar.Parser.EndsList)
    (isFrom : middle.kind = .keyword .from)
    (sourcesRead : Grammar.Parser.Yields
      (Grammar.Parser.sourceList (Grammar.level (Grammar.nestingLimit - 1))) ss sources
      Grammar.Parser.EndsList)
    (clause : Grammar.Parser.YieldsClause .where
      (Grammar.level (Grammar.nestingLimit - 1)).expression Grammar.Strength.disjunction.Stops ws
      condition)
    (whole : ∀ t ∈ is ++ (ss ++ ws), t.endsBatch = false) (ends : stop.kind = .endOfInput) :
    ofTokens ⟨first :: (is ++ middle :: (ss ++ ws)) ++ [stop], []⟩ =
      ⟨⟨[{ location := first.location, items, sources, condition }]⟩, []⟩ := by
  apply ofTokens_query isSelect _ ends
  · exact Grammar.Parser.queryStatement_yields isSelect
      (Grammar.Parser.selectQuery_yields isSelect begins itemsRead isFrom sourcesRead clause) rfl
  · simp only [List.forall_mem_append, List.forall_mem_cons] at whole ⊢
    exact ⟨whole.1, Grammar.endsBatch_of_keyword isFrom, whole.2⟩

end QueryNames
