import QueryNames.Proofs.OneQuery
import QueryNames.Proofs.Resumption.Query

/-!
A query behind a statement that is no query. Main statement: the statement is complained of once and
passed over, and with it the common tables of the query behind it and the operands that this begins
with in parentheses; from the first `SELECT` on that stands outside of all groups the query is read
as it is read alone.
-/

namespace QueryNames

open Grammar

/-- A statement that is no query: it begins with a keyword that says so, closes its groups, and has
no semicolon and no `SELECT` outside of them. -/
structure OtherStatement where
  first : Token
  others : List Token
  keyword : Keyword
  isFirst : first.kind = .keyword keyword
  starts : keyword.startsOtherStatement = true
  oneBatch : ∀ t ∈ others, t.endsBatch = false
  balanced : balances 0 others = true
  passed : ∀ t ∈ outside 0 others, resumes t = false

namespace OtherStatement

variable (u : OtherStatement)

def tokens : List Token := u.first :: u.others

/-- The complaint of the statement, at its first token. -/
def error : Diagnostic :=
  ⟨.grammatical (.unsupportedStatement u.first.found), u.first.location⟩

theorem endsBatch_tokens : ∀ t ∈ u.tokens, t.endsBatch = false := by
  refine List.forall_mem_cons.2 ⟨?_, u.oneBatch⟩
  simp [Token.endsBatch, Token.isSeparator, Token.isEnd, u.isFirst]

end OtherStatement

namespace Grammar

namespace Parser

variable {c d e : Cursor} {kept : Option Query}

theorem opened_idle {ts : List Token} (idle : Idle ts) (depth : Nat) :
    opened depth ts = some depth := by
  induction ts with
  | nil => rfl
  | cons t ts ih =>
      obtain ⟨here, behind⟩ := List.forall_mem_cons.1 idle
      have plain : t.isParen = false := by
        rcases here with kind | kind <;> simp [Token.isParen, Token.isPunctuation, kind]
      rw [opened_plain plain, ih behind]

/-- A skip does not move where no statement follows. -/
theorem skipUntil_idle (idle : Idle c.tokens) : c.skipUntil resumes = c := by
  obtain ⟨t, ahead⟩ := c
  cases ahead with
  | nil => rfl
  | cons next ahead =>
      rcases idle t List.mem_cons_self with kind | kind <;>
        simp [Cursor.skipUntil, Cursor.skipFrom, resumes, Token.isEnd, Token.isPunctuation, kind]

theorem script_of_idle (ended : Ended c.tokens) (idle : Idle c.tokens) :
    ∃ d, script ⟨c, []⟩ = (some [], ⟨d, []⟩) := by
  induction length : c.remaining using Nat.strongRecOn generalizing c with
  | ind n ih =>
      cases ends : c.isAtEnd with
      | true => exact ⟨c, script_end ends⟩
      | false =>
          have semicolon : c.current.kind = .punctuation .semicolon :=
            (idle c.current List.mem_cons_self).resolve_right fun kind => by
              simp [Cursor.isAtEnd, Token.isEnd, kind] at ends
          have fewer := Cursor.remaining_advance ended ends
          have behind : c.advance.tokens <:+ c.tokens := Cursor.advance_suffix c
          obtain ⟨d, rest⟩ := ih c.advance.remaining (by omega) (ended.of_suffix behind (by simp))
            (fun t member => idle t (behind.subset member)) rfl
          have first : statement ⟨c, []⟩ = (some (none, true), ⟨c.advance, []⟩) := by
            rw [statement, acceptPunctuation, bind_some (accept_present
              (Token.isPunctuation_iff.2 semicolon)), if_pos rfl]
            rfl
          refine ⟨d, collect_more first ?_ rest⟩
          simp only [State.remaining]
          omega

theorem finishStatement_idle (idle : Idle c.tokens) :
    finishStatement ⟨c, []⟩ = (some (), ⟨c, []⟩) := by
  have ends : (c.isAtEnd || c.current.isPunctuation .semicolon) = true := by
    rcases idle c.current List.mem_cons_self with kind | kind <;>
      simp [Cursor.isAtEnd, Token.isEnd, Token.isPunctuation, kind]
  rw [finishStatement, atStatementEnd, bind_some (looks _ _), ends, Bool.true_or, Bool.true_or,
    if_pos rfl]
  rfl

/-- A query with nothing behind it is a script. -/
theorem script_of_query {query : Query} (ended : Ended c.tokens)
    (begins : c.current.kind = .keyword .select)
    (run : queryChain (level 39) ⟨c, []⟩ = (some query, ⟨d, []⟩)) (idle : Idle d.tokens) :
    ∃ d', script ⟨c, []⟩ = (some [{ query with commonTables := [] }], ⟨d', []⟩) := by
  have noTables : commonTables (level 39) ⟨c, []⟩ = (some [], ⟨c, []⟩) :=
    commonTables_absent begins (by decide)
  have tried : attempt (queryChain (level 39)) ⟨c, []⟩ = (some (some query), ⟨d, []⟩) := by
    rw [attempt, run]
  have whole : (level nestingLimit).query ⟨c, []⟩ =
      (some { query with commonTables := [] }, ⟨d, []⟩) := by
    show queryStatement (level 39) ⟨c, []⟩ = _
    rw [queryStatement_eq, place, bind_some (looks _ _), bind_some noTables, bind_some tried]
    rfl
  have read : Parser.query ⟨c, []⟩ = (some { query with commonTables := [] }, ⟨d, []⟩) := by
    have tried : attempt (level nestingLimit).query ⟨c, []⟩ =
        (some (some { query with commonTables := [] }), ⟨d, []⟩) := by
      rw [attempt, whole]
    rw [Parser.query, bind_some tried, bind_some (finishStatement_idle idle)]
    rfl
  have starts : c.startsQuery = true := by simp [Cursor.startsQuery, begins]
  have inside : c.isAtEnd = false := Cursor.isAtEnd_of_startsQuery starts
  have first : statement ⟨c, []⟩ =
      (some (some { query with commonTables := [] }, true), ⟨d, []⟩) := by
    have noSemicolon : acceptPunctuation .semicolon ⟨c, []⟩ = (some false, ⟨c, []⟩) :=
      acceptPunctuation_absent begins (by decide)
    have tried : attempt Parser.query ⟨c, []⟩ =
        (some (some { query with commonTables := [] }), ⟨d, []⟩) := by
      rw [attempt, read]
    rw [statement, bind_some noSemicolon, if_neg Bool.false_ne_true, bind_some (looks _ _), inside,
      if_neg Bool.false_ne_true, bind_some (looks _ _), starts, if_pos rfl, bind_some tried]
    rfl
  have onward := query_onward (n := 39) starts
  rw [show (level (39 + 1)).query ⟨c, []⟩ = _ from whole] at onward
  have shorter := onward.remaining_le
  have fewer := Cursor.remaining_advance ended inside
  obtain ⟨d', rest⟩ := script_of_idle (ended.of_suffix (onward.tokens.trans
    (Cursor.advance_suffix c)) (by simp)) idle
  refine ⟨d', collect_more first ?_ rest⟩
  simp only [State.remaining] at shorter ⊢
  omega

namespace Resumption

/-- What is left of a query is a script. -/
theorem script (resumption : Resumption 39 d e kept) (ended : Ended e.tokens)
    (idle : Idle d.tokens) : ∃ d', script ⟨e, []⟩ = (some kept.toList, ⟨d', []⟩) := by
  cases resumption with
  | query ended begins run => exact script_of_query ended begins run idle
  | nothing behind =>
      refine script_of_idle ended ?_
      rcases behind with rfl | ends
      · rwa [skipUntil_idle idle]
      · rw [Cursor.tokens_of_isAtEnd ended ends]
        intro t member
        exact .inr (List.mem_singleton.1 member ▸ Token.isEnd_iff.1 ends)

/-- Where nothing is left, nothing but a semicolon stands or an end of input. -/
theorem idle_of_nothing {n : Nat} (resumption : Resumption n d e none) (idle : Idle d.tokens) :
    e.current.kind = .punctuation .semicolon ∨ e.current.kind = .endOfInput := by
  cases resumption with
  | nothing behind =>
      rcases behind with rfl | ends
      · rw [skipUntil_idle idle]
        exact idle d.current List.mem_cons_self
      · exact .inr (Token.isEnd_iff.1 ends)

/-- It does not begin with a group that closes. -/
theorem isPunctuation_eq_false {n : Nat} (resumption : Resumption n d e kept)
    (idle : Idle d.tokens) : e.current.isPunctuation .rightParen = false := by
  cases kept with
  | some query =>
      cases resumption with
      | query _ begins _ => simp [Token.isPunctuation, begins]
  | none =>
      rcases resumption.idle_of_nothing idle with kind | kind <;>
        simp [Token.isPunctuation, kind]

/-- Something is left where the skip comes to `SELECT`, and nowhere else. -/
theorem isSome_eq {n : Nat} (resumption : Resumption n d e kept) (idle : Idle d.tokens) :
    kept.isSome = e.current.isKeyword .select := by
  cases kept with
  | some query =>
      cases resumption with
      | query _ begins _ => exact (Token.isKeyword_iff.2 begins).symm
  | none =>
      rcases resumption.idle_of_nothing idle with kind | kind <;> simp [Token.isKeyword, kind]

end Resumption

end Parser

end Grammar

namespace OtherStatement

open Grammar.Parser

variable (u : OtherStatement) {c d : Cursor}

theorem skipUntil_others (split : c.tokens = u.others ++ d.tokens) :
    c.skipUntil resumes = d.skipUntil resumes := by
  have balanced : opened 0 u.others = some 0 := by
    simpa [balances_eq_opened] using u.balanced
  apply Cursor.skipFrom_append split balanced
  · intro t member
    exact Token.isEnd_of_endsBatch (u.oneBatch t member)
  · exact u.passed

theorem keyword_ne {k : Keyword} (other : k.startsOtherStatement = false) : u.keyword ≠ k := by
  intro same
  have starts := u.starts
  rw [same, other] at starts
  cases starts

theorem startsQuery_eq_false (first : c.current = u.first) : c.startsQuery = false := by
  have kind : c.current.kind = .keyword u.keyword := first ▸ u.isFirst
  unfold Cursor.startsQuery
  split <;> rename_i is
  · exact absurd (TokenKind.keyword.inj (kind.symm.trans is)) (u.keyword_ne rfl)
  · exact absurd (TokenKind.keyword.inj (kind.symm.trans is)) (u.keyword_ne rfl)
  · rw [kind] at is
    cases is
  · rfl

theorem report_run (first : c.current = u.first) :
    reportOtherStatement ⟨c, []⟩ = (some (), ⟨c, [u.error]⟩) := by
  rw [reportOtherStatement, current, bind_some (looks _ _)]
  simp only [first, u.isFirst, u.starts, if_true]
  simp [report, error, first]

/-- The statement is complained of, and the skip behind it comes to what follows. -/
theorem statement_run (split : c.tokens = u.tokens ++ d.tokens)
    (open_ : (d.skipUntil resumes).current.isPunctuation .rightParen = false) :
    statement ⟨c, []⟩ = (some (none, true), ⟨d.skipUntil resumes, [u.error]⟩) := by
  have first : c.current = u.first := (List.cons.inj split).1
  have kind : c.current.kind = .keyword u.keyword := first ▸ u.isFirst
  have inside : c.isAtEnd = false := Cursor.isAtEnd_eq_false kind (by simp)
  have noSemicolon : acceptPunctuation .semicolon ⟨c, []⟩ = (some false, ⟨c, []⟩) :=
    acceptPunctuation_absent kind (by simp)
  have step : c = ⟨u.first, u.others ++ d.tokens⟩ := Cursor.eq_of_tokens split
  have behind : c.advance.tokens = u.others ++ d.tokens := by
    obtain ⟨next, ahead, rest⟩ := List.exists_cons_of_ne_nil
      (List.append_ne_nil_of_right_ne_nil u.others d.tokens_ne_nil)
    rw [Cursor.advance, inside, if_neg Bool.false_ne_true, step, rest]
    rfl
  -- what follows does not begin with a group that closes, so one round is enough
  have skipped : skipStatement ⟨c.advance, [u.error]⟩ =
      (some (), ⟨d.skipUntil resumes, [u.error]⟩) := by
    refine iterate_stop ?_
    have passed : skipUntil resumes ⟨c.advance, [u.error]⟩ =
        (some (), ⟨d.skipUntil resumes, [u.error]⟩) := by
      rw [← u.skipUntil_others behind]
      rfl
    have noClosing : acceptPunctuation .rightParen ⟨d.skipUntil resumes, [u.error]⟩ =
        (some false, ⟨d.skipUntil resumes, [u.error]⟩) := accept_absent open_
    show (skipUntil resumes >>= _) _ = _
    rw [bind_some passed, bind_some noClosing]
    rfl
  have moved : advance ⟨c, [u.error]⟩ = (some (), ⟨c.advance, [u.error]⟩) := rfl
  have whole : otherStatement ⟨c, []⟩ = (some (), ⟨d.skipUntil resumes, [u.error]⟩) := by
    rw [otherStatement, bind_some (u.report_run first), bind_some moved, skipped]
  rw [statement, bind_some noSemicolon, if_neg Bool.false_ne_true, bind_some (looks _ _), inside,
    if_neg Bool.false_ne_true, bind_some (looks _ _), u.startsQuery_eq_false first,
    if_neg Bool.false_ne_true, bind_some whole]
  rfl

/-- Behind the complaint the script is what is left of the query. -/
theorem script_run {e : Cursor} {kept : Option Query} (split : c.tokens = u.tokens ++ d.tokens)
    (ended : Ended d.tokens) (idle : Idle e.tokens)
    (resumption : Resumption 39 e (d.skipUntil resumes) kept) :
    ∃ d', script ⟨c, []⟩ = (some kept.toList, ⟨d', [u.error]⟩) := by
  have onward : (d.skipUntil resumes).tokens <:+ d.tokens := Cursor.skipUntil_suffix _ _
  obtain ⟨d', rest⟩ := resumption.script (ended.of_suffix onward (by simp)) idle
  have first := u.statement_run split (resumption.isPunctuation_eq_false idle)
  refine ⟨d', collect_more first ?_ (run_behind_complaints rest [u.error])⟩
  have shorter := onward.length_le
  have longer := congrArg List.length split
  simp only [tokens, Cursor.tokens, List.length_cons, List.length_append] at shorter longer
  simp only [State.remaining, Cursor.remaining]
  omega

/-- One complaint and one query, with the names that it has alone. -/
structure FindsWhole (alone result : ParseResult) : Prop where
  errors : result.errors = [u.error]
  queries : result.script.queries.length = 1
  tableNames : result.script.tableNames = alone.script.tableNames
  fieldNames : result.script.fieldNames = alone.script.fieldNames

/-- The query is found whole if some of it is left and no name is lost. -/
theorem findsWhole_iff {query : Query} {lost : List Mark} {kept : Option Query}
    (leaves : query.Leaves lost kept) :
    u.FindsWhole ⟨⟨[query]⟩, []⟩ ⟨⟨kept.toList⟩, [u.error]⟩ ↔
      kept.isSome = true ∧ Mark.tables lost = [] ∧ Mark.fields lost = [] := by
  have alone : Script.marks ⟨[query]⟩ = lost ++ Script.marks ⟨kept.toList⟩ := by
    simp [Script.marks, leaves.marks]
  have one : kept.toList.length = 1 ↔ kept.isSome = true := by cases kept <;> simp
  have tables : Script.tableNames ⟨kept.toList⟩ = Script.tableNames ⟨[query]⟩ ↔
      Mark.tables lost = [] := by
    rw [Script.tableNames_eq_marks, Script.tableNames_eq_marks, alone, Mark.tables_append]
    exact List.self_eq_append_left
  have fields : Script.fieldNames ⟨kept.toList⟩ = Script.fieldNames ⟨[query]⟩ ↔
      Mark.fields lost = [] := by
    rw [Script.fieldNames_eq_marks, Script.fieldNames_eq_marks, alone, Mark.fields_append]
    exact List.self_eq_append_left
  constructor
  · rintro ⟨-, queries, tableNames, fieldNames⟩
    exact ⟨one.1 queries, tables.1 tableNames, fields.1 fieldNames⟩
  · rintro ⟨some_, noTable, noField⟩
    exact ⟨rfl, one.2 some_, tables.2 noTable, fields.2 noField⟩

end OtherStatement

namespace ParseResult

open Grammar Grammar.Parser

variable {front : List Token} {stop : Token} {query : Query}

/-- A query that begins with `SELECT` or `WITH`, read alone and without a complaint. -/
theorem exists_run (whole : ∀ t ∈ front, t.endsBatch = false) (ends : stop.kind = .endOfInput)
    (reads : ofTokens ⟨front ++ [stop], []⟩ = ⟨⟨[query]⟩, []⟩)
    (begins : front.head?.any isSelectOrWith = true) :
    ∃ c d, c.tokens = front ++ [stop] ∧ Ended c.tokens ∧ Idle d.tokens ∧
      (level nestingLimit).query ⟨c, []⟩ = (some query, ⟨d, []⟩) := by
  obtain ⟨-, c, s, split, quiet, run⟩ := ofTokens_quiet whole ends (congrArg errors reads)
  have inside (t : Token) (member : t ∈ front) : t.kind ≠ .endOfInput :=
    Token.kind_ne_of_endsBatch (whole t member)
  have ended : Ended c.tokens := split ▸ .concat inside ends
  rw [reads] at run
  obtain ⟨before, c₁, d, tokens, semicolons, -, read, idle⟩ := script_alone ended run quiet
  have nothing : before = [] := by
    cases before with
    | nil => rfl
    | cons t before =>
        have kind := semicolons t List.mem_cons_self
        obtain ⟨u, front, rfl⟩ : ∃ u rest, front = u :: rest := by
          cases front with
          | nil => cases begins
          | cons u rest => exact ⟨u, rest, rfl⟩
        obtain rfl : u = t := (List.cons.inj (split.symm.trans tokens)).1
        have first : isSelectOrWith u = true := begins
        simp [isSelectOrWith, Token.isKeyword, kind] at first
  obtain rfl : c = c₁ := Cursor.eq_of_tokens (by rw [tokens, nothing, List.nil_append])
  exact ⟨c, d, split, ended, idle, read⟩

/-- A query that begins with `SELECT` is all left. -/
theorem resumption_of_select {c d : Cursor} (ended : Ended c.tokens)
    (select : c.current.kind = .keyword .select)
    (run : (level nestingLimit).query ⟨c, []⟩ = (some query, ⟨d, []⟩)) :
    query.Leaves [] (some query) ∧ Resumption 39 d (c.skipUntil resumes) (some query) := by
  obtain ⟨r, chain, found⟩ := @query_noWith c 39 (some query) ⟨d, []⟩ (by rw [select]; decide) run
  obtain ⟨inner, rfl, rfl⟩ := Option.map_eq_some_iff.1 found.symm
  refine ⟨.common _, ?_⟩
  rw [skipUntil_select select]
  exact .query ended select chain

/-- What a script finds without a complaint from a place in the text on is found in the tokens from
there on. -/
theorem ofTokens_behind {c d e : Cursor} {queries : List Query}
    (whole : ∀ t ∈ front, t.endsBatch = false) (ends : stop.kind = .endOfInput)
    (split : c.tokens = front ++ [stop]) (behind : e.tokens <:+ c.tokens)
    (run : Parser.script ⟨e, []⟩ = (some queries, ⟨d, []⟩)) :
    ofTokens ⟨e.tokens, []⟩ = ⟨⟨queries⟩, []⟩ := by
  obtain ⟨passed, same⟩ := split ▸ behind
  obtain ⟨rest, last, tokens⟩ : ∃ rest last, e.tokens = rest ++ [last] :=
    ⟨_, _, (List.dropLast_concat_getLast e.tokens_ne_nil).symm⟩
  obtain ⟨rfl, rfl⟩ : front = passed ++ rest ∧ stop = last := by
    rw [tokens, ← List.append_assoc] at same
    simpa using (List.append_inj' same.symm rfl)
  have isEnd : stop.isEnd = true := Token.isEnd_iff.2 ends
  have closed : Closed e.tokens := tokens ▸ closed_concat _ isEnd
  rw [tokens, ofTokens_batch (List.forall_mem_append.1 whole).2 isEnd, ← tokens,
    ofBatch_script closed run]
  simp [Diagnostic.sort]

/-- A statement that is no query and a query behind it: what is left of the query is read behind one
complaint as it is read alone, from the first `SELECT` on that stands outside of all groups. All of
it is left if it begins with this. -/
theorem ofTokens_otherStatement (u : OtherStatement) (whole : ∀ t ∈ front, t.endsBatch = false)
    (ends : stop.kind = .endOfInput) (reads : ofTokens ⟨front ++ [stop], []⟩ = ⟨⟨[query]⟩, []⟩)
    (begins : front.head?.any isSelectOrWith = true) :
    let alone := ofTokens ⟨front ++ [stop], []⟩
    let result := ofTokens ⟨u.tokens ++ front ++ [stop], []⟩
    let behind := (Cursor.ofTokens (front ++ [stop])).skipUntil resumes
    ∃ lost kept, query.Leaves lost kept ∧ kept.isSome = behind.current.isKeyword .select ∧
      ofTokens ⟨behind.tokens, []⟩ = ⟨⟨kept.toList⟩, []⟩ ∧ result = ⟨⟨kept.toList⟩, [u.error]⟩ ∧
      (u.FindsWhole alone result ↔
        kept.isSome = true ∧ Mark.tables lost = [] ∧ Mark.fields lost = []) ∧
      (front.head?.any (·.isKeyword .select) = true → lost = [] ∧ kept = some query) := by
  intro alone result behind
  obtain ⟨c, d, split, ended, idle, read⟩ := exists_run whole ends reads begins
  obtain ⟨lost, kept, leaves, resumption, select⟩ : ∃ lost kept, query.Leaves lost kept ∧
      Resumption 39 d (c.skipUntil resumes) kept ∧
      (front.head?.any (·.isKeyword .select) = true → lost = [] ∧ kept = some query) := by
    -- behind `WITH` what is left is found along the query, and behind `SELECT` the skip stays
    cases select : front.head?.any (·.isKeyword .select) with
    | false =>
        obtain ⟨lost, kept, leaves, resumption⟩ := query_leaves ended read ⟨0, opened_idle idle 0⟩
        exact ⟨lost, kept, leaves, resumption, nofun⟩
    | true =>
        have first : c.current.kind = .keyword .select := by
          cases front with
          | nil => cases select
          | cons t front =>
              obtain rfl : c.current = t := (List.cons.inj split).1
              exact Token.isKeyword_iff.1 select
        obtain ⟨leaves, resumption⟩ := resumption_of_select ended first read
        exact ⟨[], some query, leaves, resumption, fun _ => ⟨rfl, rfl⟩⟩
  have found : result = ⟨⟨kept.toList⟩, [u.error]⟩ := by
    have batch : ∀ t ∈ u.tokens ++ front, t.endsBatch = false :=
      List.forall_mem_append.2 ⟨u.endsBatch_tokens, whole⟩
    have isEnd : stop.isEnd = true := Token.isEnd_iff.2 ends
    obtain ⟨b, tokens⟩ := Cursor.exists_tokens
      (List.append_ne_nil_of_right_ne_nil (u.tokens ++ front) (List.cons_ne_nil stop []))
    have closed : Closed b.tokens := tokens ▸ closed_concat _ isEnd
    obtain ⟨d', run⟩ :=
      u.script_run (by rw [tokens, split, List.append_assoc]) ended idle resumption
    show ofTokens _ = _
    rw [ofTokens_batch batch isEnd, ← tokens, ofBatch_script closed run]
    simp [Diagnostic.sort]
  have skipped : behind = c.skipUntil resumes := by
    rw [← Cursor.ofTokens_tokens ended.closed, split]
  have onward : (c.skipUntil resumes).tokens <:+ c.tokens := Cursor.skipUntil_suffix _ _
  obtain ⟨d', run⟩ := resumption.script (ended.of_suffix onward (by simp)) idle
  have left := ofTokens_behind whole ends split onward run
  refine ⟨lost, kept, leaves, ?_, ?_, found, ?_, select⟩
  · rw [skipped]
    exact resumption.isSome_eq idle
  · rwa [skipped]
  · rw [found, show alone = _ from reads]
    exact u.findsWhole_iff leaves

theorem eq_of_length {result : ParseResult} (one : result.script.queries.length = 1)
    (faultless : result.errors = []) : ∃ query, result = ⟨⟨[query]⟩, []⟩ := by
  obtain ⟨⟨queries⟩, errors⟩ := result
  obtain ⟨query, rfl⟩ := List.length_eq_one_iff.1 one
  exact ⟨query, congrArg _ faultless⟩

theorem ofTokens_otherStatement_exists :
    let u : OtherStatement :=
      { first := ⟨.keyword .if, "IF", .start⟩
        others := (TokenStream.ofText "EXISTS (SELECT x FROM y) PRINT z").tokens.dropLast
        keyword := .if
        isFirst := rfl
        starts := rfl
        oneBatch := by decide +kernel
        balanced := by decide +kernel
        passed := by decide +kernel }
    let front := (TokenStream.ofText "SELECT a FROM t UNION SELECT b FROM v").tokens.dropLast
    let stop := Token.endOfInput .none
    (∀ t ∈ front, t.endsBatch = false) ∧
      (∃ query, ofTokens ⟨front ++ [stop], []⟩ = ⟨⟨[query]⟩, []⟩) ∧
      u.FindsWhole (ofTokens ⟨front ++ [stop], []⟩)
        (ofTokens ⟨u.tokens ++ front ++ [stop], []⟩) := by
  intro u front stop
  have known : (∀ t ∈ front, t.endsBatch = false) ∧ front.head?.any isSelectOrWith = true ∧
      front.head?.any (·.isKeyword .select) = true ∧
      (ofTokens ⟨front ++ [stop], []⟩).script.queries.length = 1 ∧
      (ofTokens ⟨front ++ [stop], []⟩).errors = [] := by decide +kernel
  obtain ⟨whole, begins, select, one, faultless⟩ := known
  obtain ⟨query, reads⟩ := eq_of_length one faultless
  obtain ⟨lost, kept, -, -, -, -, exactly, all⟩ := ofTokens_otherStatement u whole rfl reads begins
  obtain ⟨rfl, rfl⟩ := all select
  exact ⟨whole, ⟨query, reads⟩, exactly.2 ⟨rfl, rfl, rfl⟩⟩

theorem common_tables_lost_behind_statement :
    let u : OtherStatement :=
      { first := ⟨.keyword .use, "USE", .start⟩
        others := (TokenStream.ofText "d").tokens.dropLast
        keyword := .use
        isFirst := rfl
        starts := rfl
        oneBatch := by decide +kernel
        balanced := by decide +kernel
        passed := by decide +kernel }
    let text := "WITH c AS (SELECT a FROM t) SELECT b FROM c"
    let front := (TokenStream.ofText text).tokens.dropLast
    let stop := Token.endOfInput .none
    (∀ t ∈ outside 0 u.others, t.isKeyword .with = false) ∧
      (∀ t ∈ front, t.endsBatch = false) ∧ front.head?.any isSelectOrWith = true ∧
      (∃ query, ofTokens ⟨front ++ [stop], []⟩ = ⟨⟨[query]⟩, []⟩) ∧
      tableNames text = ["t", "c"] ∧ tableNames ("USE d " ++ text) = ["c"] ∧
      ¬u.FindsWhole (ofTokens ⟨front ++ [stop], []⟩)
        (ofTokens ⟨u.tokens ++ front ++ [stop], []⟩) := by
  intro u text front stop
  have known : (∀ t ∈ outside 0 u.others, t.isKeyword .with = false) ∧
      (∀ t ∈ front, t.endsBatch = false) ∧ front.head?.any isSelectOrWith = true ∧
      tableNames text = ["t", "c"] ∧ tableNames ("USE d " ++ text) = ["c"] := by decide +kernel
  have alone : (ofTokens ⟨front ++ [stop], []⟩).script.queries.length = 1 ∧
      (ofTokens ⟨front ++ [stop], []⟩).errors = [] := by decide +kernel
  have names : (ofTokens ⟨u.tokens ++ front ++ [stop], []⟩).script.tableNames = ["c"] ∧
      (ofTokens ⟨front ++ [stop], []⟩).script.tableNames = ["t", "c"] := by decide +kernel
  obtain ⟨noWith, whole, begins, tables, tables'⟩ := known
  refine ⟨noWith, whole, begins, eq_of_length alone.1 alone.2, tables, tables', fun finds => ?_⟩
  have same := finds.tableNames
  rw [names.1, names.2] at same
  contradiction

end ParseResult

end QueryNames
