import QueryNames.Grammar.Script
import QueryNames.Proofs.Batch
import QueryNames.Proofs.DiagnosticOrder
import QueryNames.Proofs.Grammar.Absent
import QueryNames.Proofs.Grammar.Total

/-!
Scripts of one batch. Main statement: where a query begins a batch, it is the first of its script.
-/

namespace QueryNames

namespace Grammar.Parser

namespace Total

instance : Total skipStatement := by
  unfold skipStatement
  infer_instance

instance : Total finishStatement := by
  unfold finishStatement atStatementEnd
  infer_instance

instance : Total reportOtherStatement := by
  refine @bind _ _ _ _ inferInstance fun t => ?_
  split
  · infer_instance
  · infer_instance

instance : Total otherStatement := by
  unfold otherStatement
  infer_instance

instance : Total statement := by
  unfold statement
  infer_instance

instance : Total script := inferInstanceAs (Total (collect _))

end Total

theorem script_end {c : Cursor} (ends : c.isAtEnd = true) :
    script ⟨c, []⟩ = (some [], ⟨c, []⟩) := by
  have kind : c.current.kind = .endOfInput := Token.isEnd_iff.1 ends
  have noSemicolon : acceptPunctuation .semicolon ⟨c, []⟩ = (some false, ⟨c, []⟩) :=
    acceptPunctuation_absent kind nofun
  apply collect_stop (a := none)
  rw [statement, bind_some noSemicolon, if_neg Bool.false_ne_true, bind_some (looks _ _), ends,
    if_pos rfl]
  rfl

/-- What a list begins with is what its first round finds. -/
theorem collect_head {step : Parser (Option α × Bool)} [Total step] {s s' : State} {a : α}
    {more : Bool} (run : step s = (some (some a, more), s')) :
    ∃ others s'', collect step s = (some (a :: others), s'') := by
  by_cases goesOn : more = true ∧ s'.remaining < s.remaining
  · obtain ⟨others, last, rest⟩ := Total.result (p := collect step) s'
    rw [collect_goesOn run goesOn, rest]
    exact ⟨others, last, rfl⟩
  · exact ⟨[], s', collect_ends run goesOn⟩

theorem query_of_level {s s' : State} {q : Query}
    (run : (level nestingLimit).query s = (some q, s')) : ∃ s'', query s = (some q, s'') := by
  have tried : attempt (level nestingLimit).query s = (some (some q), s') := by
    rw [attempt, run]
  obtain ⟨u, last, finish⟩ := Total.result (p := finishStatement) s'
  exact ⟨last, by rw [query, bind_some tried, bind_some finish]; rfl⟩

theorem script_head {s s' : State} {q : Query} (isSelect : s.cursor.current.kind = .keyword .select)
    (run : (level nestingLimit).query s = (some q, s')) :
    ∃ others s'', script s = (some (q :: others), s'') := by
  obtain ⟨s'', found⟩ := query_of_level run
  have noSemicolon := acceptPunctuation_absent (p := .semicolon) isSelect nofun
  have tried : attempt query s = (some (some q), s'') := by rw [attempt, found]
  have goesOn : look Cursor.isAtEnd s = (some false, s) := by
    simp [look, Cursor.isAtEnd, Token.isEnd, isSelect]
  have starts : look Cursor.startsQuery s = (some true, s) := by
    simp [look, Cursor.startsQuery, isSelect]
  refine @collect_head _ _ _ _ s'' q true ?_
  rw [statement, bind_some noSemicolon, if_neg Bool.false_ne_true,
    bind_some goesOn, if_neg Bool.false_ne_true, bind_some starts, if_pos rfl, bind_some tried]
  rfl

end Grammar.Parser

namespace ParseResult

open Grammar

theorem ofBatch_script {c : Cursor} (closed : Closed c.tokens) {queries : List Query} {s : State}
    (run : Parser.script ⟨c, []⟩ = (some queries, s)) :
    ofBatch ⟨c.tokens, []⟩ = ⟨⟨queries⟩, Diagnostic.sort s.reported.reverse⟩ := by
  rw [ofBatch, Cursor.ofTokens_tokens closed, List.reverse_nil, run]
  rfl

/-- There is nothing in a batch of ends. -/
theorem ofBatch_isEmpty {tokens : List Token} (nonempty : tokens ≠ [])
    (empty : Batch.isEmpty ⟨tokens⟩ = true) : ofBatch ⟨tokens, []⟩ = ⟨⟨[]⟩, []⟩ := by
  obtain ⟨c, rfl⟩ := Cursor.exists_tokens nonempty
  have ends : ∀ t ∈ c.tokens, t.isEnd = true := List.all_eq_true.1 empty
  have closed : Closed c.tokens := by
    rw [Closed, List.getLast?_eq_some_getLast nonempty]
    exact ends _ (List.getLast_mem nonempty)
  rw [ofBatch_script closed (Parser.script_end (ends c.current List.mem_cons_self)),
    List.reverse_nil, Diagnostic.sort_nil]

/-- It makes no difference that an empty batch is left out. -/
theorem flatMap_unlessEmpty {f : ParseResult → List α} (nothing : f ⟨⟨[]⟩, []⟩ = [])
    {tokens : List Token} (nonempty : tokens ≠ []) :
    (Batch.unlessEmpty tokens).flatMap (fun batch => f (ofBatch ⟨batch.tokens, []⟩)) =
      f (ofBatch ⟨tokens, []⟩) := by
  cases empty : Batch.isEmpty ⟨tokens⟩ with
  | true => simp [Batch.unlessEmpty, empty, ofBatch_isEmpty nonempty empty, nothing]
  | false => simp [Batch.unlessEmpty, empty]

/-- Tokens up to one end are read as a batch. -/
theorem ofTokens_batch {front : List Token} {stop : Token}
    (whole : ∀ t ∈ front, t.endsBatch = false) (ends : stop.isEnd = true)
    (errors : List Diagnostic) :
    ofTokens ⟨front ++ [stop], errors⟩ = ⟨(ofBatch ⟨front ++ [stop], []⟩).script,
      Diagnostic.sort (errors ++ (ofBatch ⟨front ++ [stop], []⟩).errors)⟩ := by
  have nonempty : front ++ [stop] ≠ [] :=
    List.append_ne_nil_of_right_ne_nil front (List.cons_ne_nil _ _)
  have batches : Batch.ofTokens (front ++ [stop]) = Batch.unlessEmpty (front ++ [stop]) := by
    rw [Batch.ofTokens_whole whole (by simp [Token.endsBatch, ends]), Batch.ofTokens_nil,
      List.append_nil, Batch.closing, if_pos ends]
  have queries := flatMap_unlessEmpty (f := (·.script.queries)) rfl nonempty
  have complaints := flatMap_unlessEmpty (f := (·.errors)) rfl nonempty
  simp only [ofTokens, List.flatMap_map, batches]
  rw [queries, complaints]

/-- A batch that begins with `SELECT` begins with its query. -/
theorem ofTokens_head (front : List Token) (errors : List Diagnostic) {select stop : Token}
    {q : Query} {s : Grammar.State} (isSelect : select.kind = .keyword .select)
    (whole : ∀ t ∈ front, t.endsBatch = false) (isStop : stop.kind = .endOfInput)
    (run : (Grammar.level Grammar.nestingLimit).query ⟨⟨select, front ++ [stop]⟩, []⟩ =
      (some q, s)) :
    ∃ others, (ofTokens ⟨select :: front ++ [stop], errors⟩).script.queries = q :: others := by
  have ends : stop.isEnd = true := by simp [Token.isEnd, isStop]
  have inside (t : Token) (member : t ∈ select :: front) : t.endsBatch = false := by
    rcases List.mem_cons.1 member with rfl | member
    · simp [Token.endsBatch, Token.isSeparator, Token.isEnd, isSelect]
    · exact whole t member
  have closed : Closed (Cursor.mk select (front ++ [stop])).tokens :=
    closed_concat (select :: front) ends
  obtain ⟨others, last, script⟩ := Parser.script_head isSelect run
  have batch := ofBatch_script closed script
  apply Exists.intro others
  rw [ofTokens_batch inside ends]
  exact congrArg (·.script.queries) batch

end ParseResult

end QueryNames
