import QueryNames.Proofs.Parallel.Alone

/-!
A query in parentheses. Main statement: if nothing is wrong, it is read as it is read alone, and
the closing parenthesis behind it is passed.
-/

namespace QueryNames.Grammar.Parser

variable {border : Border} {c d : Cursor} {n : Nat} {query : Query} {r : Option Query} {s : State}

/-- What is read in parentheses without a complaint. -/
theorem queryTerm_quiet (opens : c.current.kind = .punctuation .leftParen)
    (run : queryTerm (level n) ⟨c, []⟩ = (r, s)) (quiet : s.reported = []) :
    c.opensQueryDeep = true ∧ ∃ s₁, (level n).query ⟨c.advance, []⟩ = (r, s₁) ∧
      closeParen s₁ = (some (), s) := by
  have noSelect : check (·.isKeyword .select) ⟨c, []⟩ = (some false, ⟨c, []⟩) := by
    simp [check, look, Token.isKeyword, opens]
  rw [queryTerm, bind_some noSelect, if_neg Bool.false_ne_true, bind_some (looks _ _)] at run
  cases deep : c.opensQueryDeep with
  | false =>
      rw [deep, if_neg Bool.false_ne_true] at run
      have complains : Triple (fun _ => True) (missing (.keyword .select) : Parser Query)
          (fun _ => Complained) Complained := missing_complains
      have complained := complains.ends (s := ⟨c, []⟩) trivial
      rw [run] at complained
      exact absurd quiet complained
  | true =>
      rw [deep, if_pos rfl, bind_some (advance_apply c)] at run
      rcases inner : (level n).query ⟨c.advance, []⟩ with ⟨query?, s₁⟩
      have tried : attempt (level n).query ⟨c.advance, []⟩ = (some query?, s₁) := by
        rw [attempt, inner]
      obtain ⟨u, s₂, close⟩ := Total.result (p := closeParen) s₁
      rw [bind_some tried, bind_some close] at run
      refine ⟨rfl, s₁, ?_⟩
      cases query? with
      | none =>
          cases run
          exact ⟨rfl, close⟩
      | some query =>
          cases run
          exact ⟨rfl, close⟩

/-- No query begins with a semicolon. -/
theorem opensQueryDeep_semicolon {opening t : Token} {ts : List Token}
    (opens : opening.kind = .punctuation .leftParen)
    (semicolon : t.kind = .punctuation .semicolon) :
    Cursor.opensQueryDeep ⟨opening, t :: ts⟩ = false := by
  simp [Cursor.opensQueryDeep, Cursor.tokens, Token.isPunctuation, opens, semicolon, isSelectOrWith,
    Token.isKeyword]

/-- A parenthesis that is there is passed without a complaint only if the run has come up to it. -/
theorem closeParen_quiet {s₁ s₂ : State} {u : Unit} (run : closeParen s₁ = (some u, s₂))
    (quiet : s₂.reported = []) :
    s₁.cursor.current.isPunctuation .rightParen = true ∧
      s₂ = { s₁ with cursor := s₁.cursor.advance } := by
  cases closes : s₁.cursor.current.isPunctuation .rightParen with
  | true =>
      rw [closeParen, acceptPunctuation, bind_some (accept_present closes), if_pos rfl] at run
      cases run
      exact ⟨rfl, rfl⟩
  | false => exact absurd quiet (closeParen_complains.of_result closes run)

/-- Up to its end the query has been read; the parenthesis follows in the longer text, or that is
past it already. -/
theorem near_end {c' d' : Cursor} (near : Near border c' d') (idle : Idle c'.tokens)
    (closes : d'.current.isPunctuation .rightParen = true) :
    d'.tokens = border.close :: border.first :: border.behind := by
  obtain ⟨t, ts⟩ := c'
  obtain ⟨u, us⟩ := d'
  have closing : u.kind = .punctuation .rightParen := Token.isPunctuation_iff.1 closes
  rcases near with ⟨⟨-⟩ | ⟨kind, -, -, -⟩⟩ | -
  · rfl
  · rcases idle t List.mem_cons_self with other | other <;> rw [kind, closing] at other <;>
      cases other
  · exact absurd closing border.isOpen

theorem advance_opening {opening : Token} (opens : opening.kind = .punctuation .leftParen) :
    Cursor.advance ⟨opening, d.tokens⟩ = d := by
  simp [Cursor.advance, Cursor.isAtEnd, Token.isEnd, opens, Cursor.tokens]

/-- In parentheses no semicolon stands before the query. -/
theorem reads_of_deep {opening : Token} (opens : opening.kind = .punctuation .leftParen)
    (along : Along border c.tokens d.tokens) (alone : Alone c.tokens query)
    (deep : Cursor.opensQueryDeep ⟨opening, d.tokens⟩ = true) :
    ∃ c₂, (level nestingLimit).query ⟨c, []⟩ = (some query, ⟨c₂, []⟩) ∧ Idle c₂.tokens := by
  obtain ⟨front, c₁, c₂, split, semicolons, -, reads, idle⟩ := alone
  cases front with
  | nil =>
      obtain rfl : c = c₁ := Cursor.eq_of_tokens split
      exact ⟨c₂, reads, idle⟩
  | cons t front =>
      have semicolon : d.current.kind = .punctuation .semicolon := by
        have first := semicolons t List.mem_cons_self
        rw [split] at along
        rcases along.head with ⟨kind, -⟩ | ⟨ends, -⟩
        · rw [← kind, first]
        · rw [first] at ends
          cases ends
      rw [Cursor.tokens, opensQueryDeep_semicolon opens semicolon] at deep
      contradiction

/-- The last token is no parenthesis. -/
theorem isPunctuation_last {p : Punctuation} (closed : Closed c.tokens) (last : c.ahead = []) :
    c.current.isPunctuation p = false := by
  have ends : c.current.isEnd = true := by simpa [Closed, Cursor.tokens, last] using closed
  simp [Token.isPunctuation, Token.isEnd_iff.1 ends]

/-- In parentheses the query is found that is found alone, and then they are passed. -/
theorem queryTerm_enclosed {opening : Token} (opens : opening.kind = .punctuation .leftParen)
    (along : Along border c.tokens d.tokens) (closed : Closed d.tokens)
    (alone : Alone c.tokens query)
    (run : queryTerm (level n) ⟨⟨opening, d.tokens⟩, []⟩ = (r, s)) (quiet : s.reported = []) :
    ∃ query', r = some query' ∧ s = ⟨⟨border.first, border.behind⟩, []⟩ ∧
      imprint query = imprint query' := by
  obtain ⟨deep, s₁, inner, close⟩ := queryTerm_quiet opens run quiet
  rw [advance_opening opens] at inner
  obtain ⟨c₂, reads, idle⟩ := reads_of_deep opens along alone deep
  obtain ⟨closes, passed⟩ := closeParen_quiet close quiet
  have h : LevelMatches border (level nestingLimit) (level n) := levelMatches nestingLimit n
  rcases h.query.runs c d (.along along) trivial with spoilt | agree
  · rw [reads, inner] at spoilt
    rcases spoilt with complained | complained | last
    · exact absurd rfl complained
    · rw [passed] at quiet
      exact absurd quiet complained
    · have onward := h.query.right.onward ⟨d, []⟩
      rw [inner] at onward
      have stopped := closed.of_suffix onward.tokens (Cursor.tokens_ne_nil _)
      rw [isPunctuation_last stopped last] at closes
      contradiction
  · rw [reads, inner] at agree
    obtain ⟨results, -, quiet₁, near, -⟩ := agree
    have rest := near_end near idle closes
    have past : s₁.cursor.advance = ⟨border.first, border.behind⟩ := by
      obtain ⟨⟨u, us⟩, reported⟩ := s₁
      cases rest
      simp [Cursor.advance, Cursor.isAtEnd, Token.isEnd, border.isClose]
    rw [passed, past, quiet₁]
    cases r with
    | none => cases results
    | some query' => exact ⟨query', rfl, rfl, Option.some.inj results⟩

/-- The first operand of a chain, which is not complained of if the chain is not. -/
theorem queryChain_quiet {s₀ : State} (run : queryChain (level n) s₀ = (r, s))
    (quiet : s.reported = []) : (queryTerm (level n) s₀).2.reported = [] := by
  have h : LevelMatches .any (level n) (level n) := levelMatches n n
  have onward : Onward (queryTerm (level n) s₀).2 (queryChain (level n) s₀).2 :=
    operand_onward h.queryTerm.left LevelMatches.setOperator?_advances s₀
  have kept := onward.reported
  rwa [run, quiet, List.suffix_nil] at kept

/-- With nothing behind the parentheses there is no set operation. -/
theorem queryChain_enclosed {opening : Token} (opens : opening.kind = .punctuation .leftParen)
    (along : Along border c.tokens d.tokens) (closed : Closed d.tokens)
    (alone : Alone c.tokens query) (isStop : border.first.kind = .endOfInput)
    (run : queryChain (level n) ⟨⟨opening, d.tokens⟩, []⟩ = (r, s)) (quiet : s.reported = []) :
    ∃ query', r = some query' ∧ s = ⟨⟨border.first, border.behind⟩, []⟩ ∧
      imprint query = imprint query' := by
  have quiet₁ := queryChain_quiet run quiet
  rcases term : queryTerm (level n) ⟨⟨opening, d.tokens⟩, []⟩ with ⟨r₁, s₁⟩
  rw [term] at quiet₁
  obtain ⟨query', rfl, rfl, same⟩ := queryTerm_enclosed opens along closed alone term quiet₁
  have none_ : setOperator? ⟨⟨border.first, border.behind⟩, []⟩ =
      (some none, ⟨⟨border.first, border.behind⟩, []⟩) :=
    setOperator?_end isStop
  rw [queryChain, chainRight_stop term none_ nofun] at run
  cases run
  exact ⟨query', rfl, rfl, same⟩

/-- With one more query in parentheses behind a set operator, that query is joined to the first, in
the place of what was joined to it before. -/
theorem queryChain_joined {opening : Token} (opens : opening.kind = .punctuation .leftParen)
    (along : Along border c.tokens d.tokens) (closed : Closed d.tokens)
    (alone : Alone c.tokens query) {operator : SetOperator} {s₂ : State}
    (found : setOperator? ⟨⟨border.first, border.behind⟩, []⟩ = (some (some operator), s₂))
    (moves : s₂.remaining < (State.mk ⟨opening, d.tokens⟩ []).remaining)
    (run : queryChain (level n) ⟨⟨opening, d.tokens⟩, []⟩ = (r, s)) (quiet : s.reported = []) :
    ∃ query' r₂, imprint query = imprint query' ∧ queryChain (level n) s₂ = (r₂, s) ∧
      r = some (match r₂ with
        | some right => { query' with setOperation := some ⟨operator, right⟩ }
        | none => query') := by
  have quiet₁ := queryChain_quiet run quiet
  rcases term : queryTerm (level n) ⟨⟨opening, d.tokens⟩, []⟩ with ⟨r₁, s₁⟩
  rw [term] at quiet₁
  obtain ⟨query', rfl, rfl, same⟩ := queryTerm_enclosed opens along closed alone term quiet₁
  rw [queryChain_more term found moves] at run
  rcases rest : queryChain (level n) s₂ with ⟨_ | right, s₃⟩ <;> rw [rest] at run <;> cases run
  · exact ⟨query', none, same, rfl, rfl⟩
  · exact ⟨query', some right, same, rfl, rfl⟩

/-- A statement that does not begin with `WITH` has no common tables. -/
theorem query_noWith (noWith : c.current.kind ≠ .keyword .with)
    (run : (level (n + 1)).query ⟨c, []⟩ = (r, s)) :
    ∃ r₁, queryChain (level n) ⟨c, []⟩ = (r₁, s) ∧
      r = r₁.map fun query => { query with commonTables := [] } := by
  rcases chain : queryChain (level n) ⟨c, []⟩ with ⟨r₁, s₁⟩
  have tried : attempt (queryChain (level n)) ⟨c, []⟩ = (some r₁, s₁) := by rw [attempt, chain]
  have noTables : commonTables (level n) ⟨c, []⟩ = (some [], ⟨c, []⟩) :=
    commonTables_absent rfl noWith
  have run : queryStatement (level n) ⟨c, []⟩ = (r, s) := run
  rw [queryStatement, place, bind_some (looks _ _), bind_some noTables, bind_some tried] at run
  cases r₁ with
  | none =>
      cases run
      exact ⟨none, rfl, rfl⟩
  | some query =>
      cases run
      exact ⟨some query, rfl, rfl⟩

/-- So has one that begins with a parenthesis. -/
theorem query_quiet_opening (opens : c.current.kind = .punctuation .leftParen)
    (run : (level (n + 1)).query ⟨c, []⟩ = (r, s)) :
    ∃ r₁, queryChain (level n) ⟨c, []⟩ = (r₁, s) ∧
      r = r₁.map fun query => { query with commonTables := [] } :=
  query_noWith (by rw [opens]; nofun) run

/-- A script that begins with a parenthesis, if its query goes on to the end. -/
theorem script_opening {queries : List Query} (opens : c.current.kind = .punctuation .leftParen)
    (run : script ⟨c, []⟩ = (some queries, s)) (quiet : s.reported = [])
    (ends : ∀ r s₁, (level nestingLimit).query ⟨c, []⟩ = (r, s₁) → s₁.reported = [] →
      s₁.cursor.isAtEnd = true) :
    ∃ query s₁, (level nestingLimit).query ⟨c, []⟩ = (some query, s₁) ∧ s₁.reported = [] ∧
      queries = [query] := by
  obtain ⟨a?, more, s₁, first, quiet₁, rest⟩ := collect_quiet statement_advances run quiet
  rcases statement_quiet first quiet₁ with ⟨semicolon, -, -⟩ | ⟨atEnd, -, -⟩ |
    ⟨-, query, found, reads⟩
  · rw [opens] at semicolon
    cases semicolon
  · simp [Cursor.isAtEnd, Token.isEnd, opens] at atEnd
  · obtain ⟨rfl, rfl⟩ : a? = some query ∧ more = true := by simpa using found
    refine ⟨query, s₁, reads, quiet₁, ?_⟩
    rcases rest with ⟨others, -, -, same, run⟩ | ⟨-, same, -⟩
    · obtain ⟨c₁, rfl⟩ : ∃ c₁, s₁ = ⟨c₁, []⟩ := ⟨s₁.cursor, by rw [← quiet₁]⟩
      have none_ := script_end (ends _ _ reads rfl)
      obtain rfl : others = [] := by
        rw [script, run] at none_
        cases none_
        rfl
      exact same
    · exact same

end QueryNames.Grammar.Parser
