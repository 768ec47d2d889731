import QueryNames.Proofs.Grammar.Script
import QueryNames.Proofs.Parallel.Query

/-!
Scripts that are read without a complaint. Main statement: where such a script is one query, it is
that query to the end, with nothing but semicolons around it.
-/

namespace QueryNames.Grammar

/-- One end of input, and that is the last token. -/
inductive Ended : List Token → Prop
  | last {stop : Token} (ends : stop.kind = .endOfInput) : Ended [stop]
  | next {t : Token} {ts : List Token} (goesOn : t.kind ≠ .endOfInput) (rest : Ended ts) :
      Ended (t :: ts)

namespace Ended

variable {ts us : List Token}

theorem ne_nil (ended : Ended ts) : ts ≠ [] := by
  cases ended <;> exact List.cons_ne_nil _ _

theorem closed (ended : Ended ts) : Closed ts := by
  induction ended with
  | last ends => simp [Closed, Token.isEnd, ends]
  | next _ _ ih => exact ih.cons _

theorem tail {t : Token} (ended : Ended (t :: ts)) (nonempty : ts ≠ []) : Ended ts := by
  cases ended with
  | last => contradiction
  | next _ rest => exact rest

theorem of_append {front : List Token} (ended : Ended (front ++ ts)) (nonempty : ts ≠ []) :
    Ended ts := by
  induction front with
  | nil => exact ended
  | cons t front ih => exact ih (ended.tail (List.append_ne_nil_of_right_ne_nil front nonempty))

theorem of_suffix (ended : Ended us) (suffix : ts <:+ us) (nonempty : ts ≠ []) : Ended ts := by
  obtain ⟨front, rfl⟩ := suffix
  exact ended.of_append nonempty

theorem concat {front : List Token} {stop : Token} (inside : ∀ t ∈ front, t.kind ≠ .endOfInput)
    (ends : stop.kind = .endOfInput) : Ended (front ++ [stop]) := by
  induction front with
  | nil => exact .last ends
  | cons t front ih =>
      exact .next (inside t List.mem_cons_self)
        (ih fun u member => inside u (List.mem_cons_of_mem t member))

end Ended

/-- Nothing but semicolons and ends of input. -/
def Idle (tokens : List Token) : Prop :=
  ∀ t ∈ tokens, t.kind = .punctuation .semicolon ∨ t.kind = .endOfInput

/-- The border of a text that stands in parentheses with nothing behind them. -/
def Border.ofEnd {close stop : Token} (isClose : close.kind = .punctuation .rightParen)
    (isStop : stop.kind = .endOfInput) : Border where
  close := close
  first := stop
  behind := []
  isClose := isClose
  isEdge := by rw [isStop]; rfl
  isOpen := by simp [isStop]
  skips _ _ _ := .inl rfl
  chains n operator s found := by
    have none_ : Parser.setOperator? ⟨⟨stop, []⟩, []⟩ = (some none, ⟨⟨stop, []⟩, []⟩) :=
      Parser.setOperator?_end isStop
    rw [none_] at found
    cases found

/-- Any border will do where one run is looked at and not two. -/
def Border.any : Border :=
  @Border.ofEnd ⟨.punctuation .rightParen, ")", .none⟩ (.endOfInput .none) rfl rfl

namespace Cursor

variable {c : Cursor}

theorem remaining_advance (ended : Ended c.tokens) (inside : c.isAtEnd = false) :
    c.advance.remaining + 1 = c.remaining := by
  have length := congrArg List.length (tokens_advance ended.closed inside)
  simp only [tokens, List.length_cons] at length
  simp only [remaining]
  omega

theorem tokens_of_isAtEnd (ended : Ended c.tokens) (ends : c.isAtEnd = true) :
    c.tokens = [c.current] := by
  obtain ⟨t, ahead⟩ := c
  have kind : t.kind = .endOfInput := Token.isEnd_iff.1 ends
  cases ended with
  | last => rfl
  | next goesOn => exact absurd kind goesOn

theorem isAtEnd_of_startsQuery (starts : c.startsQuery = true) : c.isAtEnd = false := by
  by_cases ends : c.current.kind = .endOfInput
  · simp [startsQuery, ends] at starts
  · exact isAtEnd_eq_false rfl ends

end Cursor

namespace Parser

/-! A query that is not there is complained of, and one that is there takes a step. -/

theorem chainRight_none {operand : Parser α} {operator : Parser (Option ω)} {join : α → ω → α → α}
    {s s' : State} (run : chainRight operand operator join s = (none, s')) :
    operand s = (none, s') := by
  rcases first : operand s with ⟨_ | a, s₁⟩
  · rwa [chainRight_nothing first] at run
  · rcases between : operator s₁ with ⟨_ | _ | op, s₂⟩
    · rw [chainRight_stop first between nofun] at run
      cases run
    · rw [chainRight_stop first between nofun] at run
      cases run
    · by_cases shorter : s₂.remaining < s.remaining
      · rw [chainRight_more first between shorter] at run
        cases run
      · rw [chainRight_still first between shorter] at run
        cases run

variable {inner : Level}

theorem queryTerm_explains (explains : Explains inner.query) : Explains (queryTerm inner) := by
  refine .bind (Q := fun _ _ => True) (.look fun _ => id) fun select => ?_
  cases select with
  | true => exact Explains.ofTotal (p := selectQuery inner)
  | false =>
      refine .bind (Q := fun _ _ => True) (.look fun _ => id) fun opens => ?_
      cases opens with
      | false => exact missing_complains
      | true =>
          refine .bind (Q := fun _ _ => True) (.move fun _ => id) fun _ => ?_
          refine .bind (Q := fun query? s => query? = none → Complained s) (.attempt ?_)
            fun query? => ?_
          · exact explains.weaken (fun _ => id) (fun _ _ _ => nofun)
              (fun _ complained _ => complained)
          · cases query? with
            | none =>
                refine .bind (Q := fun _ => Complained) ?_ fun _ => .giveUp fun _ => id
                exact closeParen_advances.complained.weaken (fun _ start => start rfl)
                  (fun _ _ => id) (fun _ => id)
            | some query =>
                refine .bind (Q := fun _ _ => True) ?_ fun _ => .pure fun _ => id
                exact Explains.ofTotal.weaken (fun _ _ => trivial) (fun _ _ => id) (fun _ => id)

theorem queryChain_explains (explains : Explains inner.query) : Explains (queryChain inner) := by
  intro s _
  rcases run : queryChain inner s with ⟨_ | query, s'⟩
  · exact (queryTerm_explains explains).of_none trivial (chainRight_none run)
  · trivial

instance (inner : Level) : Total (commonTable inner) := by
  refine @Total.bind _ _ _ _ inferInstance fun head? => ?_
  rcases head? with _ | ⟨name, columns⟩
  · exact inferInstanceAs (Total (skipUntil (·.isKeyword .select) >>= fun _ => pure (none, false)))
  · dsimp only
    infer_instance

instance (inner : Level) : Total (commonTables inner) := by
  unfold commonTables
  have : Total (collect (commonTable inner)) := inferInstance
  infer_instance

theorem query_explains (n : Nat) : Explains (level n).query := by
  induction n with
  | zero => exact tooDeep_complains.weaken (fun _ => id) (fun _ _ _ => trivial) (fun _ => id)
  | succ n ih =>
      refine .bind (Q := fun _ _ => True) (.look fun _ => id) fun location => ?_
      refine .bind (Q := fun _ _ => True) Explains.ofTotal fun tables => ?_
      refine .bind (Q := fun query? s => query? = none → Complained s) (.attempt ?_)
        fun query? => ?_
      · exact (queryChain_explains ih).weaken (fun _ => id) (fun _ _ _ => nofun)
          (fun _ complained _ => complained)
      · cases query? with
        | some query => exact .pure fun _ _ => trivial
        | none =>
            dsimp only
            split
            · exact .giveUp fun _ complained => complained rfl
            · exact .pure fun _ _ => trivial

theorem advance_apply (c : Cursor) : advance ⟨c, []⟩ = (some (), ⟨c.advance, []⟩) := rfl

theorem selectQuery_onward (n : Nat) (c : Cursor) :
    Onward ⟨c.advance, []⟩ (selectQuery (level n) ⟨c, []⟩).2 := by
  have h : LevelMatches .any (level n) (level n) := levelMatches n n
  have into := (@MatchesFrom.intoClause .any fun _ _ => True).left
  have options := (@MatchesFrom.skipOptions .any fun _ _ => True).left
  have where_ := h.expressionClause (k := .where) nofun nofun nofun
  have having_ := h.expressionClause (k := .having) nofun nofun nofun
  rw [selectQuery, place, bind_some (looks _ _), bind_some (advance_apply c)]
  refine Advances.onward (.bind .accept fun distinct => ?_) _
  refine .bind (.onlyIf .accept) fun _ => .bind .look fun limited => ?_
  refine .bind (.onlyIf h.top.left) fun top? => .bind h.selectList.left fun items => ?_
  refine .bind into fun _ => .bind h.fromClause.left fun sources => ?_
  refine .bind where_.left fun condition => .bind h.groupClause.left fun groupBy => ?_
  refine .bind having_.left fun having => ?_
  exact .bind h.orderClause.left fun orderBy => .bind options fun _ => .pure

theorem queryTerm_onward {n : Nat} {c : Cursor}
    (starts : c.current.isKeyword .select = true ∨ c.opensQueryDeep = true) :
    Onward ⟨c.advance, []⟩ (queryTerm (level n) ⟨c, []⟩).2 := by
  have h : LevelMatches .any (level n) (level n) := levelMatches n n
  rw [queryTerm, check, bind_some (looks _ _)]
  cases select : c.current.isKeyword .select with
  | true => exact selectQuery_onward n c
  | false =>
      rw [if_neg Bool.false_ne_true, bind_some (looks _ _)]
      have opens : c.opensQueryDeep = true := by simpa [select] using starts
      rw [opens, if_pos rfl, bind_some (advance_apply c)]
      exact Advances.onward (.bind h.query.left.attempt fun query? =>
        .bind closeParen_advances fun _ => .ofOption) _

theorem queryChain_onward {n : Nat} {c : Cursor}
    (starts : c.current.isKeyword .select = true ∨ c.opensQueryDeep = true) :
    Onward ⟨c.advance, []⟩ (queryChain (level n) ⟨c, []⟩).2 := by
  have h : LevelMatches .any (level n) (level n) := levelMatches n n
  exact (queryTerm_onward starts).trans (operand_onward h.queryTerm.left
    LevelMatches.setOperator?_advances _)

/-- Behind a query that may be missing nothing more is read. -/
theorem withTables_advances (location : Location) (tables : List CommonTable)
    (query? : Option Query) :
    Advances (withTables location tables query?) := by
  unfold withTables
  cases query? with
  | some query => exact .pure
  | none =>
      dsimp only
      split
      · exact .giveUp
      · exact .pure

/-- A query steps over the token that begins it. -/
theorem query_onward {n : Nat} {c : Cursor} (starts : c.startsQuery = true) :
    Onward ⟨c.advance, []⟩ ((level (n + 1)).query ⟨c, []⟩).2 := by
  have h : LevelMatches .any (level n) (level n) := levelMatches n n
  show Onward _ (queryStatement (level n) ⟨c, []⟩).2
  rw [queryStatement_eq, place, bind_some (looks _ _)]
  cases with_ : c.current.isKeyword .with with
  | true =>
      have accepted : acceptKeyword .with ⟨c, []⟩ = (some true, ⟨c.advance, []⟩) :=
        accept_present with_
      refine Onward.trans ?_ (bind_onward (fun tables =>
        h.queryChain.left.attempt.bind (withTables_advances _ tables)) _)
      rw [commonTables, bind_some accepted, if_pos rfl]
      exact (Advances.collect h.commonTable.left).onward _
  | false =>
      have absent : commonTables (level n) ⟨c, []⟩ = (some [], ⟨c, []⟩) := by
        rw [commonTables, acceptKeyword, bind_some (accept_absent with_)]
        rfl
      have begins : c.current.isKeyword .select = true ∨ c.opensQueryDeep = true := by
        unfold Cursor.startsQuery at starts
        split at starts
        · rename_i kind
          exact .inl (by simp [Token.isKeyword, kind])
        · rename_i kind
          simp [Token.isKeyword, kind] at with_
        · exact .inr starts
        · contradiction
      rw [bind_some absent]
      refine (@queryChain_onward n c begins).trans ?_
      exact bind_onward (p := attempt (queryChain (level n))) (withTables_advances _ []) ⟨c, []⟩

/-! Statements. -/

theorem skipStatement_advances : Advances skipStatement :=
  .iterate
    (fun _ => .bind (.move (Cursor.skipUntil_suffix _)) fun _ => .bind .accept fun _ => .pure) ()

theorem finishStatement_advances : Advances finishStatement := by
  refine .bind .look fun ends => ?_
  cases ends with
  | true => exact .pure
  | false => exact .bind (.bind .look fun _ => .report) fun _ => skipStatement_advances

theorem query_advances : Advances query := by
  have h : LevelMatches .any (level nestingLimit) (level nestingLimit) := levelMatches _ _
  exact .bind h.query.left.attempt fun query? => .bind finishStatement_advances fun _ => .ofOption

theorem reportOtherStatement_advances : Advances reportOtherStatement := by
  refine .bind .look fun t => ?_
  have missed : Advances (reportMissing (.keyword .select)) := .bind .look fun _ => .report
  split
  · split
    · exact .report
    · exact missed
  · exact missed

theorem otherStatement_advances : Advances otherStatement :=
  .bind reportOtherStatement_advances fun _ =>
    .bind (.move Cursor.advance_suffix) fun _ => skipStatement_advances

theorem statement_advances : Advances statement := by
  refine .bind .accept fun semicolon => ?_
  cases semicolon with
  | true => exact .pure
  | false =>
      refine .bind .look fun ends => ?_
      cases ends with
      | true => exact .pure
      | false =>
          refine .bind .look fun starts => ?_
          cases starts with
          | true => exact .bind query_advances.attempt fun _ => .pure
          | false => exact .bind otherStatement_advances fun _ => .pure

theorem otherStatement_complains {s : State} : Complained (otherStatement s).2 := by
  have reports : Triple (fun _ => True) reportOtherStatement (fun _ => Complained) Complained := by
    refine .bind (Q := fun _ _ => True) (.look fun _ => id) fun t => ?_
    split
    · split
      · exact report_complains
      · exact reportMissing_complains
    · exact reportMissing_complains
  have whole : Triple (fun _ => True) otherStatement (fun _ => Complained) Complained :=
    .bind reports fun _ => Advances.complained
      (.bind (.move Cursor.advance_suffix) fun _ => skipStatement_advances)
  exact whole.ends trivial

/-- A statement that does not end is complained of. -/
theorem finishStatement_quiet {s s' : State} {u : Unit}
    (run : finishStatement s = (some u, s')) (quiet : s'.reported = []) : s' = s := by
  obtain ⟨ends, looked⟩ : ∃ ends, atStatementEnd s = (some ends, s) := ⟨_, rfl⟩
  rw [finishStatement, bind_some looked] at run
  cases ends with
  | true =>
      cases run
      rfl
  | false =>
      have complains : Triple (fun _ => True) (do reportSurplus .endOfStatement; skipStatement)
          (fun _ => Complained) Complained :=
        .bind (.bind (Q := fun _ _ => True) (.look fun _ => id) fun _ => report_complains)
          fun _ => skipStatement_advances.complained
      exact absurd quiet (complains.of_result trivial run)

theorem query_quiet {c : Cursor} {query? : Option Query} {s : State}
    (run : query ⟨c, []⟩ = (query?, s)) (quiet : s.reported = []) :
    ∃ q, query? = some q ∧ (level nestingLimit).query ⟨c, []⟩ = (some q, s) := by
  rcases first : (level nestingLimit).query ⟨c, []⟩ with ⟨found?, s₁⟩
  have tried : attempt (level nestingLimit).query ⟨c, []⟩ = (some found?, s₁) := by
    rw [attempt, first]
  obtain ⟨u, s₂, finish⟩ := Total.result (p := finishStatement) s₁
  rw [query, bind_some tried, bind_some finish] at run
  cases found? with
  | none =>
      cases run
      obtain rfl := finishStatement_quiet finish quiet
      exact absurd quiet ((query_explains nestingLimit).of_none trivial first)
  | some q =>
      cases run
      obtain rfl := finishStatement_quiet finish quiet
      exact ⟨q, rfl, rfl⟩

/-- What is read as a statement without a complaint: a semicolon, the end, or a query. -/
theorem statement_quiet {c : Cursor} {r : Option (Option Query × Bool)} {s : State}
    (run : statement ⟨c, []⟩ = (r, s)) (quiet : s.reported = []) :
    (c.current.kind = .punctuation .semicolon ∧ r = some (none, true) ∧ s = ⟨c.advance, []⟩) ∨
      (c.isAtEnd = true ∧ r = some (none, false) ∧ s = ⟨c, []⟩) ∨
      (c.startsQuery = true ∧ ∃ query, r = some (some query, true) ∧
        (level nestingLimit).query ⟨c, []⟩ = (some query, s)) := by
  rw [statement] at run
  cases semicolon : c.current.isPunctuation .semicolon with
  | true =>
      rw [acceptPunctuation, bind_some (accept_present semicolon), if_pos rfl] at run
      cases run
      exact .inl ⟨Token.isPunctuation_iff.1 semicolon, rfl, rfl⟩
  | false =>
      rw [acceptPunctuation, bind_some (accept_absent semicolon), if_neg Bool.false_ne_true,
        bind_some (looks _ _)] at run
      cases ends : c.isAtEnd with
      | true =>
          rw [ends, if_pos rfl] at run
          cases run
          exact .inr (.inl ⟨rfl, rfl, rfl⟩)
      | false =>
          rw [ends, if_neg Bool.false_ne_true, bind_some (looks _ _)] at run
          cases starts : c.startsQuery with
          | false =>
              rw [starts, if_neg Bool.false_ne_true] at run
              have complained := otherStatement_complains.onward (bind_onward
                (f := fun _ => pure ((none : Option Query), true)) (fun _ => .pure) ⟨c, []⟩)
              rw [run] at complained
              exact absurd quiet complained
          | true =>
              rcases tried : query ⟨c, []⟩ with ⟨query?, s₁⟩
              have attempted : attempt query ⟨c, []⟩ = (some query?, s₁) := by rw [attempt, tried]
              rw [starts, if_pos rfl, bind_some attempted] at run
              cases run
              obtain ⟨q, rfl, found⟩ := query_quiet tried quiet
              exact .inr (.inr ⟨rfl, q, rfl, found⟩)

/-- The first round of a collection without a complaint, and what the others find. -/
theorem collect_quiet {step : Parser (Option α × Bool)} (advances : Advances step) {s s' : State}
    {as : List α} (run : collect step s = (some as, s')) (quiet : s'.reported = []) :
    ∃ a? more s₁, step s = (some (a?, more), s₁) ∧ s₁.reported = [] ∧
      ((∃ others, more = true ∧ s₁.remaining < s.remaining ∧ as = a?.toList ++ others ∧
          collect step s₁ = (some others, s')) ∨
        (¬(more = true ∧ s₁.remaining < s.remaining) ∧ as = a?.toList ∧ s' = s₁)) := by
  have kept {s₁ : State} (onward : Onward s₁ s') : s₁.reported = [] := by
    have suffix := onward.reported
    rwa [quiet, List.suffix_nil] at suffix
  rcases first : step s with ⟨_ | ⟨a?, more⟩, s₁⟩
  · rw [collect_nothing first] at run
    cases run
  · refine ⟨a?, more, s₁, rfl, ?_⟩
    by_cases goesOn : more = true ∧ s₁.remaining < s.remaining
    · rw [collect_goesOn first goesOn] at run
      have onward := (Advances.collect advances).onward s₁
      rcases rest : collect step s₁ with ⟨_ | others, s₂⟩ <;> rw [rest] at run onward
      · cases run
      · cases run
        exact ⟨kept onward, .inl ⟨others, goesOn.1, goesOn.2, rfl, rfl⟩⟩
    · rw [collect_ends first goesOn] at run
      cases run
      exact ⟨quiet, .inr ⟨goesOn, rfl, rfl⟩⟩

/-- Where nothing is found and nothing complained of, there is nothing. -/
theorem script_idle {c : Cursor} {s : State} (ended : Ended c.tokens)
    (run : script ⟨c, []⟩ = (some [], s)) (quiet : s.reported = []) : Idle c.tokens := by
  induction length : c.remaining using Nat.strongRecOn generalizing c with
  | ind n ih =>
      obtain ⟨a?, more, s₁, first, quiet₁, rest⟩ := collect_quiet statement_advances run quiet
      rcases statement_quiet first quiet₁ with ⟨semicolon, found, rfl⟩ | ⟨ends, -, -⟩ |
        ⟨-, q, found, -⟩
      · obtain ⟨rfl, rfl⟩ : a? = none ∧ more = true := by simpa using found
        have inside : c.isAtEnd = false := Cursor.isAtEnd_eq_false semicolon nofun
        have fewer := Cursor.remaining_advance ended inside
        have tokens := Cursor.tokens_advance ended.closed inside
        have idle : Idle c.advance.tokens := by
          rcases rest with ⟨others, -, -, none_, run⟩ | ⟨stops, -, -⟩
          · obtain rfl : others = [] := by simpa using none_.symm
            refine ih c.advance.remaining (by omega) (ended.of_suffix ?_ (by simp)) run rfl
            exact Cursor.advance_suffix c
          · exact absurd ⟨rfl, by simp only [State.remaining]; omega⟩ stops
        rw [tokens]
        intro t member
        rcases List.mem_cons.1 member with rfl | member
        · exact .inl semicolon
        · exact idle t member
      · rw [Cursor.tokens_of_isAtEnd ended ends]
        intro t member
        obtain rfl := List.mem_singleton.1 member
        exact .inr (Token.isEnd_iff.1 ends)
      · obtain ⟨rfl, rfl⟩ : a? = some q ∧ more = true := by simpa using found
        rcases rest with ⟨others, -, -, none_, -⟩ | ⟨-, none_, -⟩ <;> cases none_

/-- The tokens are read as a query without a complaint, and semicolons stand around it. -/
def Alone (tokens : List Token) (query : Query) : Prop :=
  ∃ front c₁ c₂, tokens = front ++ c₁.tokens ∧
    (∀ t ∈ front, t.kind = .punctuation .semicolon) ∧ c₁.startsQuery = true ∧
    (level nestingLimit).query ⟨c₁, []⟩ = (some query, ⟨c₂, []⟩) ∧ Idle c₂.tokens

theorem script_alone {c : Cursor} {q : Query} {s : State} (ended : Ended c.tokens)
    (run : script ⟨c, []⟩ = (some [q], s)) (quiet : s.reported = []) : Alone c.tokens q := by
  induction length : c.remaining using Nat.strongRecOn generalizing c with
  | ind n ih =>
      obtain ⟨a?, more, s₁, first, quiet₁, rest⟩ := collect_quiet statement_advances run quiet
      rcases statement_quiet first quiet₁ with ⟨semicolon, found, rfl⟩ | ⟨-, found, -⟩ |
        ⟨starts, q', found, reads⟩
      · obtain ⟨rfl, rfl⟩ : a? = none ∧ more = true := by simpa using found
        have inside : c.isAtEnd = false := Cursor.isAtEnd_eq_false semicolon nofun
        have fewer := Cursor.remaining_advance ended inside
        have tokens := Cursor.tokens_advance ended.closed inside
        rcases rest with ⟨others, -, -, same, run⟩ | ⟨stops, -, -⟩
        · obtain rfl : others = [q] := by simpa using same.symm
          obtain ⟨front, c₁, c₂, split, semicolons, rest⟩ := ih c.advance.remaining (by omega)
            (ended.of_suffix (Cursor.advance_suffix c) (by simp)) run rfl
          refine ⟨c.current :: front, c₁, c₂, by rw [tokens, split]; rfl, ?_, rest⟩
          intro t member
          rcases List.mem_cons.1 member with rfl | member
          · exact semicolon
          · exact semicolons t member
        · exact absurd ⟨rfl, by simp only [State.remaining]; omega⟩ stops
      · obtain ⟨rfl, rfl⟩ : a? = none ∧ more = false := by simpa using found
        rcases rest with ⟨others, more, -⟩ | ⟨-, none_, -⟩
        · cases more
        · cases none_
      · obtain ⟨rfl, rfl⟩ : a? = some q' ∧ more = true := by simpa using found
        have onward := query_onward (n := 39) starts
        rw [show (level (39 + 1)).query ⟨c, []⟩ = _ from reads] at onward
        obtain ⟨c₂, rfl⟩ : ∃ c₂, s₁ = ⟨c₂, []⟩ := ⟨s₁.cursor, by rw [← quiet₁]⟩
        have shorter := onward.remaining_le
        have fewer := Cursor.remaining_advance ended (Cursor.isAtEnd_of_startsQuery starts)
        rcases rest with ⟨others, -, -, same, run⟩ | ⟨stops, -, -⟩
        · obtain ⟨rfl, rfl⟩ : q = q' ∧ others = [] := by simpa using same
          refine ⟨[], c, c₂, rfl, by simp, starts, reads, script_idle ?_ run quiet⟩
          exact ended.of_suffix (onward.tokens.trans (Cursor.advance_suffix c)) (by simp)
        · exact absurd ⟨rfl, by simp only [State.remaining] at shorter ⊢; omega⟩ stops

end Parser

end QueryNames.Grammar
