import QueryNames.Proofs.Mark
import QueryNames.Proofs.Parallel.Enclosed
import QueryNames.Proofs.Resumption.Skip

/-!
What a skip to the next statement makes of a query. Main statements: the tables that are named
before a query are passed over, and so are the operands in parentheses that a chain of set
operations begins with; what the skip comes to is read as the rest of the chain.
-/

namespace QueryNames

/-- What is left of a query where its common tables are passed over, and so many of its first
operands, and the marks of what is passed over. -/
inductive Query.Leaves : Query → List Mark → Option Query → Prop
  | common (query : Query) :
      query.Leaves query.commonMarks (some { query with commonTables := [] })
  | operand {query : Query} {operation : SetOperation} {lost : List Mark} {kept : Option Query}
      (joined : query.setOperation = some operation) (behind : operation.right.Leaves lost kept) :
      query.Leaves (query.commonMarks ++ query.ownMarks ++ lost) kept
  | nothing (query : Query) : query.Leaves query.outline.marks none

namespace Query.Leaves

variable {query : Query} {lost : List Mark} {kept : Option Query}

theorem marks (leaves : query.Leaves lost kept) :
    query.outline.marks = lost ++ kept.toList.flatMap (·.outline.marks) := by
  induction leaves with
  | common query =>
      have own : Query.ownMarks { query with commonTables := [] } = query.ownMarks := rfl
      have joined : Query.joinedMarks { query with commonTables := [] } = query.joinedMarks := rfl
      simp [Query.marks_outline, own, joined, Query.commonMarks]
  | @operand query operation lost kept joined behind ih =>
      rw [Query.marks_outline, Query.joinedMarks, joined]
      simp [ih]
  | nothing query => simp

/-- It does not depend on the common tables what is left. -/
theorem withTables (leaves : query.Leaves lost kept) (tables : List CommonTable) :
    ∃ lost', Query.Leaves { query with commonTables := tables } lost' kept := by
  cases leaves with
  | common => exact ⟨_, common { query with commonTables := tables }⟩
  | operand joined behind =>
      have same : ({ query with commonTables := tables } : Query).setOperation = some _ := joined
      exact ⟨_, operand same behind⟩
  | nothing => exact ⟨_, nothing { query with commonTables := tables }⟩

end Query.Leaves

namespace Grammar

/-- No token in the set is one that a skip looks at. -/
class OnlyPassed (q : Token → Bool) : Prop where
  ordinary (t : Token) : q t = true → Ordinary t
  passes (t : Token) : q t = true → resumes t = false

theorem onlyPassed_of_kind {q : Token → Bool} {kind : TokenKind}
    (is : ∀ t, q t = true → t.kind = kind) (ordinary : kind.isOrdinary = true)
    (noSemicolon : kind ≠ .punctuation .semicolon) (noSelect : kind ≠ .keyword .select) :
    OnlyPassed q where
  ordinary t found := .of_kind (is t found) ordinary
  passes t found := by
    simp [resumes, Token.isPunctuation, Token.isKeyword, is t found, noSemicolon, noSelect]

theorem onlyPassed_keyword {k : Keyword} (other : k ≠ .select) : OnlyPassed (·.isKeyword k) :=
  onlyPassed_of_kind (fun _ => Token.isKeyword_iff.1) rfl nofun
    fun same => other (TokenKind.keyword.inj same)

instance : OnlyPassed (·.isKeyword .with) := onlyPassed_keyword nofun

instance : OnlyPassed (·.isKeyword .as) := onlyPassed_keyword nofun

instance : OnlyPassed (·.isKeyword .union) := onlyPassed_keyword nofun

instance : OnlyPassed (·.isKeyword .all) := onlyPassed_keyword nofun

instance : OnlyPassed (·.isKeyword .except) := onlyPassed_keyword nofun

instance : OnlyPassed (·.isKeyword .intersect) := onlyPassed_keyword nofun

instance : OnlyPassed (·.isPunctuation .comma) :=
  onlyPassed_of_kind (fun _ => Token.isPunctuation_iff.1) rfl nofun nofun

namespace Parser

/-- A run without a complaint goes over what a skip to the next statement passes. -/
class Leading (p : Parser α) : Prop where
  stepwise : Stepwise p
  leads {c d : Cursor} {a? : Option α} : Ended c.tokens → p ⟨c, []⟩ = (a?, ⟨d, []⟩) → Leads c d

section Quiet

variable {p : Parser α} {f : α → Parser β} {c d : Cursor} {b? : Option β} {s : State}

/-- A run without a complaint has none where it has not ended either. -/
theorem quiet_of_onward (onward : Onward s ⟨d, []⟩) : ∃ e, s = ⟨e, []⟩ := by
  obtain ⟨e, reported⟩ := s
  have none_ : reported = [] := List.suffix_nil.1 onward.reported
  exact ⟨e, by rw [none_]⟩

/-- The two parts of a run without a complaint. -/
theorem bind_quiet [rest : ∀ a, Stepwise (f a)] (run : (p >>= f) ⟨c, []⟩ = (b?, ⟨d, []⟩)) :
    (p ⟨c, []⟩ = (none, ⟨d, []⟩) ∧ b? = none) ∨
      ∃ a e, p ⟨c, []⟩ = (some a, ⟨e, []⟩) ∧ f a ⟨e, []⟩ = (b?, ⟨d, []⟩) := by
  rw [bind_apply] at run
  rcases first : p ⟨c, []⟩ with ⟨_ | a, s⟩ <;> rw [first] at run
  · cases run
    exact .inl ⟨rfl, rfl⟩
  · have onward := (Stepwise.advances (f a)).onward s
    rw [show f a s = (b?, ⟨d, []⟩) from run] at onward
    obtain ⟨e, rfl⟩ := quiet_of_onward onward
    exact .inr ⟨a, e, rfl, run⟩

theorem bind_quiet_total [Total p] [∀ a, Stepwise (f a)]
    (run : (p >>= f) ⟨c, []⟩ = (b?, ⟨d, []⟩)) :
    ∃ a e, p ⟨c, []⟩ = (some a, ⟨e, []⟩) ∧ f a ⟨e, []⟩ = (b?, ⟨d, []⟩) := by
  rcases bind_quiet run with ⟨nothing, -⟩ | found
  · obtain ⟨a, s, result⟩ := Total.result (p := p) ⟨c, []⟩
    rw [result] at nothing
    cases nothing
  · exact found

theorem ended_of_run [Stepwise p] (ended : Ended c.tokens) {a? : Option α}
    (run : p ⟨c, []⟩ = (a?, ⟨d, []⟩)) : Ended d.tokens := by
  have onward := (Stepwise.advances p).onward ⟨c, []⟩
  rw [run] at onward
  exact ended.of_suffix onward.tokens (by simp)

end Quiet

namespace Leading

/-- Where something is complained of there is nothing to show. -/
theorem complains {p : Parser α} [Stepwise p]
    (complaint : Triple (fun _ => True) p (fun _ => Complained) Complained) : Leading p where
  stepwise := inferInstance
  leads {c d a?} _ run := by
    have complained : Complained (p ⟨c, []⟩).2 := complaint.ends trivial
    rw [run] at complained
    exact absurd rfl complained

theorem stays {p : Parser α} [Stepwise p] (still : ∀ s, (p s).2 = s) : Leading p where
  stepwise := inferInstance
  leads {c d a?} _ run := by
    have same := still ⟨c, []⟩
    rw [run] at same
    cases same
    exact .refl _

instance (a : α) : Leading (pure a : Parser α) := stays fun _ => rfl

instance (f : Cursor → α) : Leading (look f) := stays fun _ => rfl

instance (q : Token → Bool) : Leading (check q) := stays fun _ => rfl

instance bind (p : Parser α) (f : α → Parser β) [first : Leading p] [rest : ∀ a, Leading (f a)] :
    Leading (p >>= f) where
  stepwise := @Stepwise.bind _ _ p f first.stepwise fun a => (rest a).stepwise
  leads ended run := by
    have := first.stepwise
    have (a : α) : Stepwise (f a) := (rest a).stepwise
    rcases bind_quiet run with ⟨nothing, -⟩ | ⟨a, e, found, run⟩
    · exact first.leads ended nothing
    · exact (first.leads ended found).trans ((rest a).leads (ended_of_run ended found) run)

/-- The same, for what follows by cases on the result. -/
theorem next {p : Parser α} {f : α → Parser β} [Leading p] (rest : ∀ a, Leading (f a)) :
    Leading (p >>= f) := bind p f

instance (p : Parser α) [passes : Leading p] : Leading (attempt p) where
  stepwise := have := passes.stepwise; inferInstance
  leads {c d a?} ended run := by
    rcases inner : p ⟨c, []⟩ with ⟨b?, s⟩
    rw [attempt, inner] at run
    cases run
    exact passes.leads ended inner

instance (condition : Prop) [Decidable condition] (p q : Parser α) [Leading p] [Leading q] :
    Leading (if condition then p else q) := by
  split <;> infer_instance

instance (q : Token → Bool) [only : OnlyPassed q] : Leading (accept q) where
  stepwise := inferInstance
  leads {c d a?} ended run := by
    cases found : q c.current with
    | false =>
        rw [accept_absent found] at run
        cases run
        exact .refl _
    | true =>
        rw [accept_present found] at run
        cases run
        have ordinary := only.ordinary _ found
        exact .step ended ordinary.isEnd ordinary.isParen (only.passes _ found)

instance (k : Keyword) [OnlyPassed (·.isKeyword k)] : Leading (acceptKeyword k) :=
  inferInstanceAs (Leading (accept _))

instance (p : Punctuation) [OnlyPassed (·.isPunctuation p)] : Leading (acceptPunctuation p) :=
  inferInstanceAs (Leading (accept _))

instance (expected : Expected) : Leading (missing expected : Parser α) :=
  complains missing_complains

instance (k : Keyword) [OnlyPassed (·.isKeyword k)] : Leading (requireKeyword k) := by
  unfold requireKeyword
  infer_instance

instance : Leading setOperator? := by
  unfold setOperator?
  infer_instance

instance : Leading identifier where
  stepwise := inferInstance
  leads {c d a?} ended run := by
    rw [identifier_apply] at run
    split at run <;> cases run
    · rename_i kind
      have ordinary : Ordinary c.current := .of_kind kind rfl
      have passes : resumes c.current = false := by
        have kind : c.current.kind = .identifier := kind
        simp [resumes, Token.isPunctuation, Token.isKeyword, kind]
      exact .step ended ordinary.isEnd ordinary.isParen passes
    · exact .refl _

instance (expected : Expected) : Leading (requireIdentifier expected) := by
  apply next
  rintro (_ | name) <;> infer_instance

instance (step : Parser (Option α × Bool)) [round : Leading step] : Leading (collect step) where
  stepwise := have := round.stepwise; inferInstance
  leads {c d a?} ended run := by
    have := round.stepwise
    -- along the rounds, each of which begins where the one before it has ended
    generalize start : State.mk c [] = s at run
    fun_induction collect step s generalizing c a? with
    | case1 s s' first =>
        cases start
        cases run
        exact round.leads ended first
    | case2 s item? more s' first goesOn s'' last ih
    | case3 s item? more s' first goesOn items s'' last ih =>
        cases start
        cases run
        have onward := (Stepwise.advances (collect step)).onward s'
        rw [last] at onward
        obtain ⟨e, rfl⟩ := quiet_of_onward onward
        exact (round.leads ended first).trans (ih (ended_of_run ended first) rfl last)
    | case4 s item? more s' first stops =>
        cases start
        cases run
        exact round.leads ended first

end Leading

section Productions

variable {c d : Cursor} {n : Nat}

/-- Over a group that is read without a complaint, and closed. -/
theorem leads_group {p : Parser α} [Stepwise p] (counts : ∀ whole, Counts whole [] 0 0 p)
    (ended : Ended c.tokens) (opens : c.current.isPunctuation .leftParen = true) {a? : Option α}
    {s : State} {u : Unit} (read : p ⟨c.advance, []⟩ = (a?, s))
    (close : closeParen s = (some u, ⟨d, []⟩)) : Leads c d := by
  obtain ⟨closes, passed⟩ := closeParen_quiet close rfl
  obtain ⟨e, reported⟩ := s
  obtain ⟨rfl, rfl⟩ : d = e.advance ∧ [] = reported := by simpa using passed
  exact Leads.group counts ended opens read closes

instance : Leading columnNames where
  stepwise := inferInstance
  leads {c d a?} ended run := by
    rw [columnNames, check, bind_some (looks _ _)] at run
    split at run
    · rename_i opens
      rw [identifierList, bind_some (advance_apply c)] at run
      obtain ⟨names, e, read, run⟩ := bind_quiet_total run
      obtain ⟨u, e', close, run⟩ := bind_quiet_total run
      cases run
      exact leads_group (fun whole => inferInstance) ended opens read close
    · cases run
      exact .refl _

/-! Common tables. -/

/-- `name [( columns )] AS` -/
def commonTableName : Parser (Identifier × List Identifier) := do
  let name ← requireIdentifier .commonTableName
  let columns ← columnNames
  requireKeyword .as
  return (name, columns)

theorem commonTableHead_eq : commonTableHead = (do
    let head ← commonTableName
    requirePunctuation .leftParen
    return head) := by
  simp only [commonTableHead, commonTableName, bind_assoc, pure_bind]

instance : Leading commonTableName := by
  unfold commonTableName
  infer_instance

instance : Stepwise commonTableName := by
  unfold commonTableName
  infer_instance

theorem requirePunctuation_some {p : Punctuation} {s s' : State} {u : Unit}
    (run : requirePunctuation p s = (some u, s')) :
    s.cursor.current.isPunctuation p = true ∧ s' = { s with cursor := s.cursor.advance } := by
  cases found : s.cursor.current.isPunctuation p with
  | true =>
      rw [requirePunctuation, acceptPunctuation, bind_some (accept_present found), if_pos rfl]
        at run
      cases run
      exact ⟨rfl, rfl⟩
  | false =>
      rw [requirePunctuation, acceptPunctuation, bind_some (accept_absent found),
        if_neg Bool.false_ne_true, missing, bind_apply] at run
      split at run <;> cases run

theorem requireIdentifier_explains (expected : Expected) :
    Explains (requireIdentifier expected) := by
  apply Triple.bind (Explains.ofTotal (p := attempt identifier))
  rintro (_ | name)
  · exact Explains.missing
  · exact .pure fun _ => id

theorem commonTableHead_explains : Explains commonTableHead :=
  .bind (requireIdentifier_explains _) fun _ => .bind (Explains.ofTotal (p := columnNames))
    fun _ => .bind Explains.requireKeyword fun _ => .bind Explains.requirePunctuation
      fun _ => .pure fun _ => id

/-- What is read of a common table behind the parenthesis that opens its query. -/
def commonTableBody (inner : Level) :
    Option (Identifier × List Identifier) → Parser (Option CommonTable × Bool)
  | none => do
      skipUntil (·.isKeyword .select)
      return (none, false)
  | some (name, columns) => do
      let query? ← attempt (commonTableQuery inner)
      closeParen
      let more ← acceptPunctuation .comma
      return (query?.map fun query => ⟨name, columns, query⟩, more)

theorem commonTable_eq (inner : Level) :
    commonTable inner = attempt commonTableHead >>= commonTableBody inner := rfl

instance (head? : Option (Identifier × List Identifier)) :
    Stepwise (commonTableBody (level n) head?) := by
  rcases head? with _ | ⟨name, columns⟩
  · exact inferInstanceAs
      (Stepwise (skipUntil (·.isKeyword .select) >>= fun _ => pure (none, false)))
  · unfold commonTableBody
    infer_instance

instance : Leading (commonTable (level n)) where
  stepwise := inferInstance
  leads {c d a?} ended run := by
    rw [commonTable_eq] at run
    obtain ⟨head?, e, tried, run⟩ := bind_quiet_total run
    rcases first : commonTableHead ⟨c, []⟩ with ⟨head?', s⟩
    rw [attempt, first] at tried
    cases tried
    rcases head? with _ | ⟨name, columns⟩
    · exact absurd rfl (commonTableHead_explains.of_none trivial first)
    · rw [commonTableHead_eq] at first
      rcases bind_quiet first with ⟨-, nothing⟩ | ⟨head, e₁, named, opening⟩
      · cases nothing
      rcases bind_quiet opening with ⟨-, nothing⟩ | ⟨u, e₂, opens, same⟩
      · cases nothing
      cases same
      obtain ⟨isOpening, entered⟩ := requirePunctuation_some opens
      cases entered
      have outer : Leads c e₁ := Leading.leads ended named
      have ended₁ : Ended e₁.tokens := ended_of_run ended named
      have ended₂ : Ended e₁.advance.tokens :=
        ended₁.of_suffix (Cursor.advance_suffix e₁) (by simp)
      obtain ⟨query?, e₃, tried, run⟩ := bind_quiet_total run
      obtain ⟨u, e₄, close, run⟩ := bind_quiet_total run
      have counts (whole : List Token) :
          Counts whole [] 0 0 (attempt (commonTableQuery (level n))) := inferInstance
      have group : Leads e₁ e₄ := leads_group counts ended₁ isOpening tried close
      have ended₄ : Ended e₄.tokens := ended_of_run (ended_of_run ended₂ tried) close
      have comma : Leading (do
          let more ← acceptPunctuation .comma
          return (query?.map fun query => ⟨name, columns, query⟩, more) :
            Parser (Option CommonTable × Bool)) := inferInstance
      exact (outer.trans group).trans (comma.leads ended₄ run)

instance : Leading (commonTables (level n)) := by
  unfold commonTables
  infer_instance

/-! Set operations. -/

/-- An operand in parentheses. -/
theorem queryTerm_leads (ended : Ended c.tokens) (opens : c.current.kind = .punctuation .leftParen)
    {query? : Option Query} (run : queryTerm (level n) ⟨c, []⟩ = (query?, ⟨d, []⟩)) :
    Leads c d := by
  obtain ⟨-, s, read, close⟩ := queryTerm_quiet opens run rfl
  exact leads_group (fun whole => inferInstance) ended (Token.isPunctuation_iff.2 opens) read close

/-- An operand begins with `SELECT` or with a parenthesis. -/
theorem queryTerm_begins {query? : Option Query}
    (run : queryTerm (level n) ⟨c, []⟩ = (query?, ⟨d, []⟩)) :
    c.current.kind = .keyword .select ∨ c.current.kind = .punctuation .leftParen := by
  rw [queryTerm, check, bind_some (looks _ _)] at run
  split at run
  · rename_i select
    exact .inl (Token.isKeyword_iff.1 select)
  · rw [bind_some (looks _ _)] at run
    split at run
    · rename_i deep
      exact .inr (Token.isPunctuation_iff.1 (Bool.and_eq_true_iff.1 deep).1)
    · have complained : Complained (missing (.keyword .select) (α := Query) ⟨c, []⟩).2 :=
        Triple.ends (P := fun _ => True) missing_complains trivial
      rw [run] at complained
      exact absurd rfl complained

/-- What a skip to the next statement comes to: a query that is read up to `d`, or nothing. -/
inductive Resumption (n : Nat) (d : Cursor) : Cursor → Option Query → Prop
  | query {e : Cursor} {query : Query} (ended : Ended e.tokens)
      (begins : e.current.kind = .keyword .select)
      (run : queryChain (level n) ⟨e, []⟩ = (some query, ⟨d, []⟩)) :
      Resumption n d e (some { query with commonTables := [] })
  | nothing {e : Cursor} (behind : e = d.skipUntil resumes ∨ e.isAtEnd = true) :
      Resumption n d e none

theorem ownsGroups_of_run {p : Parser α} (counts : ∀ whole, Counts whole [] 0 0 p)
    (ended : Ended c.tokens) {a? : Option α} (run : p ⟨c, []⟩ = (a?, ⟨d, []⟩))
    (owned : d.OwnsGroups) : c.OwnsGroups := by
  rcases Counts.opened_of_run counts ended run with found | ⟨front, actual, split, found⟩
  · exact found
  · obtain ⟨left, rest⟩ := owned
    refine ⟨left + actual, ?_⟩
    rw [← split, opened_append, found, Option.bind_some]
    simpa using opened_add rest actual

theorem skipUntil_select (begins : c.current.kind = .keyword .select) :
    c.skipUntil resumes = c := by
  have stops : resumes c.current = true := by simp [resumes, Token.isKeyword, begins]
  obtain ⟨t, ahead⟩ := c
  cases ahead with
  | nil => rfl
  | cons next ahead =>
      have kind : t.kind = .keyword .select := begins
      simp [Cursor.skipUntil, Cursor.skipFrom, Token.isEnd, Token.isPunctuation, kind, stops]

/-- A chain without a complaint is an operand, or one with a chain behind it. -/
theorem queryChain_parts {query : Query}
    (run : queryChain (level n) ⟨c, []⟩ = (some query, ⟨d, []⟩)) :
    ∃ first e, queryTerm (level n) ⟨c, []⟩ = (some first, ⟨e, []⟩) ∧
      ((∃ operator?, setOperator? ⟨e, []⟩ = (some operator?, ⟨d, []⟩) ∧ query = first) ∨
        ∃ operator right e', setOperator? ⟨e, []⟩ = (some (some operator), ⟨e', []⟩) ∧
          e'.remaining < c.remaining ∧
          queryChain (level n) ⟨e', []⟩ = (some right, ⟨d, []⟩) ∧
          query = { first with setOperation := some ⟨operator, right⟩ }) := by
  have quiet := queryChain_quiet run rfl
  rcases term : queryTerm (level n) ⟨c, []⟩ with ⟨_ | first, s⟩
  · rw [queryChain, chainRight_nothing term] at run
    cases run
  obtain ⟨e, rfl⟩ : ∃ e, s = ⟨e, []⟩ := ⟨s.cursor, by rw [← quiet, term]⟩
  refine ⟨first, e, rfl, ?_⟩
  obtain ⟨operator?, s', between⟩ := Total.result (p := setOperator?) ⟨e, []⟩
  rcases operator? with _ | operator
  · rw [queryChain, chainRight_stop term between (by simp)] at run
    cases run
    exact .inl ⟨none, between, rfl⟩
  · by_cases fewer : s'.remaining < (State.mk c []).remaining
    · rw [queryChain_more term between fewer] at run
      have onward := (Stepwise.advances (queryChain (level n))).onward s'
      rcases rest : queryChain (level n) s' with ⟨_ | right, s''⟩ <;> rw [rest] at onward run <;>
        cases run <;> obtain ⟨e', rfl⟩ := quiet_of_onward onward
      · exact absurd rfl ((queryChain_explains (query_explains n)).of_none trivial rest)
      · exact .inr ⟨operator, right, e', between, fewer, rest, rfl⟩
    · rw [queryChain, chainRight_still term between fewer] at run
      cases run
      exact .inl ⟨some operator, between, rfl⟩

/-- Of a chain without a complaint the first operands are passed over that stand in parentheses. -/
theorem queryChain_leaves {query : Query} (ended : Ended c.tokens)
    (run : queryChain (level n) ⟨c, []⟩ = (some query, ⟨d, []⟩)) (owned : d.OwnsGroups) :
    ∃ lost kept, query.Leaves lost kept ∧ Resumption n d (c.skipUntil resumes) kept := by
  -- along the operands, up to the first that begins with `SELECT`
  induction length : c.remaining using Nat.strongRecOn generalizing c query with
  | ind k ih =>
      obtain ⟨first, e, term, last | ⟨operator, right, e', between, fewer, rest, rfl⟩⟩ :=
        queryChain_parts run
      all_goals rcases queryTerm_begins term with begins | opens
      · rw [skipUntil_select begins]
        exact ⟨_, _, .common query, .query ended begins run⟩
      · obtain ⟨operator?, between, rfl⟩ := last
        have passes : Leads e d := Leading.leads (ended_of_run ended term) between
        have behind := ((queryTerm_leads ended opens term).trans passes).skips owned
        exact ⟨_, _, .nothing query, .nothing behind⟩
      · rw [skipUntil_select begins]
        exact ⟨_, _, .common _, .query ended begins run⟩
      · have passes : Leads e e' := Leading.leads (ended_of_run ended term) between
        have ended' : Ended e'.tokens := ended_of_run (ended_of_run ended term) between
        have owned' : e'.OwnsGroups :=
          ownsGroups_of_run (p := queryChain (level n)) (fun _ => inferInstance) ended' rest owned
        obtain ⟨lost, kept, leaves, resumption⟩ := ih _ (length ▸ fewer) ended' rest rfl
        rcases ((queryTerm_leads ended opens term).trans passes).skips owned' with same | ends
        · rw [same]
          exact ⟨_, _, .operand rfl leaves, resumption⟩
        · exact ⟨_, _, .nothing _, .nothing (.inr ends)⟩

/-- Of a query without a complaint the common tables are passed over, and with them the operands
that stand in parentheses behind them. -/
theorem query_leaves {query : Query} (ended : Ended c.tokens)
    (run : (level (n + 1)).query ⟨c, []⟩ = (some query, ⟨d, []⟩)) (owned : d.OwnsGroups) :
    ∃ lost kept, query.Leaves lost kept ∧ Resumption n d (c.skipUntil resumes) kept := by
  have run : queryStatement (level n) ⟨c, []⟩ = (some query, ⟨d, []⟩) := run
  rw [queryStatement_eq, place, bind_some (looks _ _)] at run
  obtain ⟨tables, e, named, run⟩ := bind_quiet_total run
  obtain ⟨query?, e', tried, run⟩ := bind_quiet_total run
  have ended' : Ended e.tokens := ended_of_run ended named
  rcases chain : queryChain (level n) ⟨e, []⟩ with ⟨found?, s⟩
  rw [attempt, chain] at tried
  cases tried
  cases query? with
  | none => exact absurd rfl ((queryChain_explains (query_explains n)).of_none trivial chain)
  | some inner =>
      cases run
      have owned' : e.OwnsGroups :=
        ownsGroups_of_run (p := queryChain (level n)) (fun _ => inferInstance) ended' chain owned
      obtain ⟨lost, kept, leaves, resumption⟩ := queryChain_leaves ended' chain owned
      have before : Leads c e := Leading.leads ended named
      rcases before.skips owned' with same | ends
      · obtain ⟨lost', leaves'⟩ := leaves.withTables tables
        rw [same]
        exact ⟨lost', kept, leaves', resumption⟩
      · exact ⟨_, _, .nothing _, .nothing (.inr ends)⟩

end Productions

end Parser

end Grammar

end QueryNames
