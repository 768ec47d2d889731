import QueryNames.Proofs.Dangling.Expression
import QueryNames.Proofs.Written.Name

/-!
Table sources and queries before the end of an item or an operator, neither of which can end a query
in parentheses. Main statement: so do the parsers of every level.
-/

namespace QueryNames.Grammar

open Grammar.Parser

set_option synthInstance.maxSize 2048

variable {x : Overhang}

/-! Names that go on up to the end of the expression. -/

/-- A dotted name, with or without its last part, and nothing behind it. -/
inductive Names (x : Overhang) : Cursor → Prop
  | last {t : Token} (is : t.kind = .identifier) : Names x ⟨t, x.left.tokens⟩
  | broken {t period : Token} (is : t.kind = .identifier)
      (isPeriod : period.kind = .punctuation .period) :
      Names x ⟨t, (Cursor.mk period x.left.tokens).tokens⟩
  | part {t period : Token} {c : Cursor} (is : t.kind = .identifier)
      (isPeriod : period.kind = .punctuation .period) (rest : Names x c) :
      Names x ⟨t, (Cursor.mk period c.tokens).tokens⟩

namespace Names

variable {c d : Cursor}

theorem isName (names : Names x c) : c.current.kind = .identifier := by
  cases names <;> assumption

theorem noStar (names : Names x c) : startsWithQualifiedStar c.tokens = false := by
  induction names with
  | last => rfl
  | @broken t period is isPeriod => 
      simp [Cursor.tokens, startsWithQualifiedStar, Overhang.left, x.isStop]
  | @part t period c is isPeriod rest ih =>
      have isName := rest.isName
      simp only [Cursor.tokens] at ih
      simp [Cursor.tokens, startsWithQualifiedStar, ih, isName]

/-- Only such names have a star behind them in the longer list alone. -/
theorem of_star (paired : x.Paired c d) :
    startsWithQualifiedStar c.tokens = startsWithQualifiedStar d.tokens ∨ Names x c := by
  induction length : c.remaining using Nat.strongRecOn generalizing c d with
  | ind n ih =>
      rcases paired.view with ⟨rfl, rfl⟩ | ⟨name, c₁, d₁, goesOn, rfl, rfl, rest⟩
      · left
        rcases behind : x.behind with _ | ⟨t, _ | ⟨u, us⟩⟩ <;>
          simp [Cursor.tokens, Overhang.left, Overhang.right, startsWithQualifiedStar, behind,
            x.noName]
      · rcases rest.view with ⟨rfl, rfl⟩ | ⟨period, c₂, d₂, goesOn', rfl, rfl, rest'⟩
        · rcases behind : x.behind with _ | ⟨t, ts⟩ <;>
            simp [Cursor.tokens, Overhang.left, Overhang.right, startsWithQualifiedStar, behind,
              x.next_isPunctuation (p := .period) rfl]
        · have shorter : c₂.remaining < n := by
            simp only [Cursor.remaining, Cursor.tokens, List.length_cons] at length ⊢
            omega
          by_cases named : (name.kind == .identifier && period.isPunctuation .period) = true
          · obtain ⟨isName, isPeriod⟩ := Bool.and_eq_true_iff.1 named
            rw [beq_iff_eq] at isName
            rw [Token.isPunctuation_iff] at isPeriod
            rcases rest'.view with ⟨rfl, rfl⟩ | ⟨u, c₃, d₃, -, rfl, rfl, -⟩
            · exact .inr (.broken isName isPeriod)
            · rcases ih _ shorter rest' rfl with same | names
              · simp only [Cursor.tokens] at same
                simp only [Cursor.tokens, startsWithQualifiedStar, same, true_or]
              · exact .inr (.part isName isPeriod names)
          · have none_ (e : Cursor) : startsWithQualifiedStar
                (Cursor.mk name (Cursor.mk period e.tokens).tokens).tokens = false := by
              rw [Bool.not_eq_true] at named
              simp only [Cursor.tokens, startsWithQualifiedStar, named, Bool.false_and]
            rw [none_, none_]
            exact .inl rfl

end Names

namespace Parser

theorem acceptPeriod {period : Token} (isPeriod : period.kind = .punctuation .period) (c : Cursor) :
    acceptPunctuation .period ⟨⟨period, c.tokens⟩, []⟩ = (some true, ⟨c, []⟩) := by
  rw [acceptPunctuation, accept_present (Token.isPunctuation_iff.2 isPeriod),
    Cursor.advance_step (by rw [isPeriod]; decide)]

theorem namePart_name {period : Token} (isPeriod : period.kind = .punctuation .period) {c : Cursor}
    (isName : c.current.kind = .identifier) : namePart ⟨⟨period, c.tokens⟩, []⟩ =
      (some (some (.ofToken c.current), true), ⟨c.advance, []⟩) := by
  have noPeriod : check (·.isPunctuation .period) ⟨c, []⟩ = (some false, ⟨c, []⟩) := by
    simp [check, look, Token.isPunctuation, isName]
  have name : attempt identifier ⟨c, []⟩ =
      (some (some (.ofToken c.current)), ⟨c.advance, []⟩) := by
    rw [attempt, identifier_apply, if_pos isName]
  rw [namePart, bind_some (acceptPeriod isPeriod c), if_pos rfl, bind_some noPeriod,
    if_neg Bool.false_ne_true, bind_some name]
  rfl

theorem namePart_broken {period : Token} (isPeriod : period.kind = .punctuation .period) :
    Complained (namePart ⟨⟨period, x.left.tokens⟩, []⟩).2 := by
  have noPeriod : check (·.isPunctuation .period) ⟨x.left, []⟩ = (some false, ⟨x.left, []⟩) := by
    simp [check, look, Overhang.left, x.stop_isPunctuation]
  have noName : attempt identifier ⟨x.left, []⟩ = (some none, ⟨x.left, []⟩) := by
    have noName : x.left.current.kind ≠ .identifier := x.isStop ▸ (by decide)
    rw [attempt, identifier_absent rfl noName]
  rw [namePart, bind_some (acceptPeriod isPeriod x.left), if_pos rfl, bind_some noPeriod,
    if_neg Bool.false_ne_true, bind_some noName]
  exact bind_complained (fun _ => .pure) (reportMissing_complains.ends (P := fun _ => True) trivial)

theorem collect_namePart {c : Cursor} (names : Names x c) :
    Astray x (collect namePart ⟨c.advance, []⟩).2 := by
  have advances := Stepwise.advances (collect namePart)
  induction names with
  | @last t is =>
      rw [Cursor.advance_step (by rw [is]; decide)]
      exact .inr ((advances.onward ⟨x.left, []⟩).stays rfl)
  | @broken t period is isPeriod =>
      rw [Cursor.advance_step (by rw [is]; decide)]
      exact .inl ((namePart_broken isPeriod).onward (collect_onward (Stepwise.advances namePart) _))
  | @part t period c is isPeriod rest ih =>
      rw [Cursor.advance_step (by rw [is]; decide)]
      have shorter : (State.mk c.advance []).remaining <
          (State.mk ⟨period, c.tokens⟩ []).remaining := by
        have onward := ((Stepwise.advances Parser.advance).onward ⟨c, []⟩).remaining_le
        simp only [State.remaining, Cursor.remaining, Cursor.tokens, List.length_cons] at onward ⊢
        exact Nat.lt_succ_of_le onward
      rw [collect_goesOn (namePart_name isPeriod rest.isName) ⟨rfl, shorter⟩]
      exact ih

section Primary

variable (inner : Level) [inner.Stepwise]

/-- What no sign, `NOT` or `EXISTS` stands before begins with a primary expression. -/
theorem primary_onward (s : State) (noSign : sign? s.cursor.current.kind = none)
    (noWord : ∀ k ∈ [Keyword.not, .exists], s.cursor.current.isKeyword k = false) :
    Onward (primary inner s).2 (disjunction inner s).2 := by
  simp only [List.forall_mem_cons] at noWord
  obtain ⟨noNot, noExists, -⟩ := noWord
  have chain (operand : Parser Expression) (operator : Parser (Option BinaryOperator))
      [Stepwise operand] [Stepwise operator] :
      Onward (operand s).2 (chainLeft operand operator .binary s).2 := by
    have rounds (left : Expression) : Advances
        (iterate (chainRound operand operator .binary) left) := Stepwise.advances _
    exact bind_onward rounds s
  have signs : signed inner s = primary inner s := by
    have absent : operator? sign? s = (some none, s) := by
      simp only [operator?, current, look, bind_apply, noSign]
      rfl
    rw [signed, bind_some absent]
  have negates : negation inner s = predicate inner s := by
    rw [negation, acceptKeyword, bind_some (accept_absent noNot), if_neg Bool.false_ne_true]
  have tests : Onward (additive inner s).2 (predicate inner s).2 := by
    have absent : check (·.isKeyword .exists) s = (some false, s) := by
      simp [check, look, noExists]
    rw [predicate_eq, bind_some absent, if_neg Bool.false_ne_true]
    exact bind_onward (fun left => Stepwise.advances (predicateTail inner left)) s
  have factors : Onward (signed inner s).2 (multiplicative inner s).2 := chain _ _
  have terms : Onward (multiplicative inner s).2 (additive inner s).2 := chain _ _
  have conditions : Onward (negation inner s).2 (conjunction inner s).2 := chain _ _
  have whole : Onward (conjunction inner s).2 (disjunction inner s).2 := chain _ _
  rw [signs] at factors
  rw [negates] at conditions
  exact factors.trans (terms.trans (tests.trans (conditions.trans whole)))

theorem columnOrCall_names {c : Cursor} (names : Names x c) :
    Astray x (columnOrCall inner ⟨c, []⟩).2 := by
  have first : attempt identifier ⟨c, []⟩ =
      (some (some (.ofToken c.current)), ⟨c.advance, []⟩) := by
    rw [attempt, identifier_apply, if_pos names.isName]
  have name : Astray x (qualifiedName ⟨c, []⟩).2 := by
    rw [qualifiedName, bind_some first]
    exact (collect_namePart names).onward (bind_onward (fun _ => .pure) _)
  have looks : place ⟨c, []⟩ = (some c.current.location, ⟨c, []⟩) := rfl
  rw [columnOrCall, bind_some looks]
  exact name.onward (bind_onward (fun name => Stepwise.advances _) _)

theorem primary_names {c : Cursor} (names : Names x c) : Astray x (primary inner ⟨c, []⟩).2 := by
  have isNamed : primary inner ⟨c, []⟩ = named inner c.current (c.peek 1) ⟨c, []⟩ := by
    have looks : current ⟨c, []⟩ = (some c.current, ⟨c, []⟩) := rfl
    have peeks : peek 1 ⟨c, []⟩ = (some (c.peek 1), ⟨c, []⟩) := rfl
    rw [primary, bind_some looks, bind_some peeks]
    simp only [names.isName]
  have column := columnOrCall_names inner names
  have dotted {t next : Token} (isPeriod : next.kind = .punctuation .period) :
      named inner t next = columnOrCall inner := by
    simp [named, Token.isPunctuation, isPeriod]
  rw [isNamed]
  cases names with
  | @last t is =>
      have nothing (p : Punctuation) : x.left.current.isPunctuation p = false :=
        x.stop_isPunctuation p
      rw [Cursor.peek_step, named_last inner (nothing _) (nothing _)]
      split
      · right
        exact Cursor.advance_step (by rw [is]; decide) x.left
      · exact column
  | broken is isPeriod => rwa [Cursor.peek_step, dotted isPeriod]
  | part is isPeriod rest => rwa [Cursor.peek_step, dotted isPeriod]

omit [inner.Stepwise] in
theorem primary_variable {t : Token} (is : t.kind = .variable) :
    Astray x (primary inner ⟨⟨t, x.left.tokens⟩, []⟩).2 := by
  obtain ⟨kind, text, location⟩ := t
  obtain rfl : kind = .variable := is
  have moved := Cursor.advance_step (t := ⟨.variable, text, location⟩) (by simp) x.left
  exact .inr moved

end Primary

/-- So does an expression. -/
theorem expression_astray (n : Nat) {c : Cursor}
    (is : c.current.kind = .identifier ∨ c.current.kind = .variable)
    (astray : Astray x (primary (level (n - 1)) ⟨c, []⟩).2) :
    Astray x ((level n).expression ⟨c, []⟩).2 := by
  cases n with
  | zero => exact .inl (tooDeep_complains.ends trivial)
  | succ n =>
      apply astray.onward (primary_onward (level n) _ _ _)
      · rcases is with is | is <;> rw [is] <;> rfl
      · rcases is with is | is <;> simp [Token.isKeyword, is]

/-- An expression with the name that it is to have. -/
def labelled (n : Nat) : Parser SelectItem := do
  let e ← (level n).expression
  return .expression e (← columnLabel)

/-- A qualified star, or else an expression. -/
def unassigned (n : Nat) : Parser SelectItem := do
  if ← look fun c => startsWithQualifiedStar c.tokens then qualifiedStar else labelled n

instance (n : Nat) : Stepwise (unassigned n) := by
  unfold unassigned labelled
  infer_instance

theorem unassigned_astray (n : Nat) {c : Cursor} (noStar : startsWithQualifiedStar c.tokens = false)
    (is : c.current.kind = .identifier ∨ c.current.kind = .variable)
    (astray : Astray x (primary (level (n - 1)) ⟨c, []⟩).2) :
    Astray x (unassigned n ⟨c, []⟩).2 := by
  have plain : unassigned n ⟨c, []⟩ = labelled n ⟨c, []⟩ := by
    have looks : look (fun c => startsWithQualifiedStar c.tokens) ⟨c, []⟩ =
        (some false, ⟨c, []⟩) := by rw [look, noStar]
    rw [unassigned, bind_some looks, if_neg Bool.false_ne_true]
  rw [plain]
  exact (expression_astray n is astray).onward (bind_onward (fun e => Stepwise.advances _) _)

end Parser

namespace Parser.Tallies

instance : Tallies x identifierList := by
  unfold identifierList
  infer_instance

instance : Tallies x columnNames := by
  unfold columnNames
  infer_instance

instance : Tallies x explicitLabel := by
  apply next
  rintro (_ | label) <;> infer_instance

instance : Tallies x tableLabel := by
  rw [tableLabel_eq]
  infer_instance

instance : Tallies x skipHints := by
  apply peek
  · simp only [x.stop_isPunctuation, x.next_isPunctuation (p := .leftParen) rfl]
  · infer_instance

instance : Tallies x joinOperator? := by
  apply next
  intro t
  apply peek
  · simp only [joinKind?, Rejects.stop (q := (·.isWord "APPLY")) x,
      Rejects.next (q := (·.isWord "APPLY")) x]
  · intro next
    cases joinKind? t next <;> infer_instance

instance : Tallies x intoClause := by
  unfold intoClause
  infer_instance

instance : Tallies x skipOptions := by
  unfold skipOptions
  infer_instance

instance : Tallies x setOperator? := by
  unfold setOperator?
  infer_instance

instance : Tallies x columnLabel := by
  apply next
  intro explicit
  apply next
  intro t
  split <;> infer_instance

instance : Tallies x commonTableHead := by
  unfold commonTableHead
  infer_instance

variable (inner : Level) [inner.Stepwise] [inner.Answers] [inner.Dangles x]

/-! Table sources. -/

instance : Tallies x (derivedTable inner) := by
  unfold derivedTable
  infer_instance

instance : Tallies x (parenthesizedSource inner) := by
  unfold parenthesizedSource
  infer_instance

instance : Tallies x (namedSource inner) := by
  unfold namedSource
  infer_instance

instance : Tallies x (table inner) := by
  apply next
  intro t
  split <;> infer_instance

instance (kind : JoinKind) : Tallies x (joinCondition inner kind) := by
  unfold joinCondition
  infer_instance

instance : Tallies x (skipJoin inner) := by
  unfold skipJoin
  infer_instance

instance (left : TableSource) : Tallies x (join inner left) := by
  apply next
  rintro (_ | kind)
  · infer_instance
  · apply next
    rintro (_ | right) <;> infer_instance

instance : Tallies x (tableSource inner) := by
  unfold tableSource
  infer_instance

instance : Tallies x (sourceList inner) := inferInstanceAs (Tallies x (commaList _ _))

/-! Clauses. -/

instance : Tallies x starPart := by
  apply next
  rintro (_ | part) <;> infer_instance

instance : Tallies x qualifiedStar := by
  rw [qualifiedStar_eq]
  infer_instance

variable (n : Nat) [(level n).Dangles x]

/-- Where a star is behind names in the longer list alone, these come to the end. -/
instance : Tallies x (unassigned n) where
  runs {c d} paired := by
    have chosen (b : Bool) : Tallies x (if b = true then qualifiedStar else labelled n) := by
      unfold labelled
      infer_instance
    rcases Names.of_star paired with same | names
    · have found := (chosen (startsWithQualifiedStar c.tokens)).runs paired
      simp only [Overhang.Alike, unassigned, bind_apply, look, ← same]
      exact found
    · exact .inl (unassigned_astray n names.noStar (.inl names.isName) (primary_names _ names))

instance : Tallies x (selectItem (level n)) := by
  let item (t next : Token) : Parser SelectItem := do
    let assigns := next.kind == .operator .eq
    if t.kind == .star then
      Parser.advance
      return .wildcard t.location
    else if t.kind == .identifier && assigns then
      let label? ← attempt identifier
      Parser.advance
      return .expression (← (level n).expression) label?
    else if t.kind == .variable && assigns then
      Parser.advance
      Parser.advance
      return .expression (← (level n).expression) none
    else unassigned n
  have each (t next : Token) : Tallies x (item t next) := by
    dsimp only [item]
    infer_instance
  have seen (t : Token) (e : Cursor) : selectItem (level n) ⟨⟨t, e.tokens⟩, []⟩ =
      item t e.current ⟨⟨t, e.tokens⟩, []⟩ := by
    have looks : current ⟨⟨t, e.tokens⟩, []⟩ = (some t, ⟨⟨t, e.tokens⟩, []⟩) := rfl
    have peeks : Parser.peek 1 ⟨⟨t, e.tokens⟩, []⟩ = (some e.current, ⟨⟨t, e.tokens⟩, []⟩) := rfl
    rw [selectItem, bind_some looks, bind_some peeks]
    rfl
  apply inside (Stepwise.advances _)
  intro c d paired ahead
  obtain ⟨t, c', d', goesOn, rfl, rfl, rest, -⟩ := paired.inside ahead
  simp only [Overhang.Alike, seen]
  rcases rest.view with ⟨rfl, rfl⟩ | ⟨u, c'', d'', -, rfl, rfl, -⟩
  · -- the operator may assign, but then the first run reads to the end
    by_cases named : t.kind = .identifier ∨ t.kind = .variable
    · have plain : item t x.left.current = unassigned n := by
        have noSign : x.left.current.kind ≠ .operator .eq := by
          simp [Overhang.left, x.isStop]
        rcases named with is | is <;> simp [item, is, noSign]
      rw [plain]
      refine .inl (unassigned_astray n rfl named ?_)
      exact named.elim (fun is => primary_names _ (.last is)) (primary_variable _)
    · have same (next : Token) : item t next = item t x.left.current := by
        simp only [not_or] at named
        simp [item, named]
      rw [same x.right.current]
      exact (each t x.left.current).runs paired
  · exact (each t u).runs paired

instance : Tallies x (selectList (level n)) := by
  unfold selectList
  infer_instance

instance : Tallies x (topQuantity (level n)) := by
  unfold topQuantity
  infer_instance

instance (quantity : Expression) (percent : Bool) : Tallies x (tiesTail quantity percent) := by
  apply peek
  · simp only [Rejects.stop (q := (·.isWord "TIES")) x,
      Rejects.next (q := (·.isWord "TIES")) x]
  · infer_instance

instance : Tallies x (top (level n)) := by
  rw [top_eq]
  infer_instance

instance : Tallies x (fromClause (level n)) := by
  unfold fromClause
  infer_instance

instance (k : Keyword) : Tallies x (expressionClause (level n) k) := by
  unfold expressionClause
  infer_instance

instance : Tallies x (groupClause (level n)) := by
  unfold groupClause
  infer_instance

instance : Tallies x (orderClause (level n)) := by
  unfold orderClause
  infer_instance

instance : Tallies x (selectQuery (level n)) := by
  unfold selectQuery
  infer_instance

/-! Queries. -/

instance : Tallies x (queryTerm (level n)) := by
  unfold queryTerm
  infer_instance

instance : Tallies x (queryChain (level n)) := inferInstanceAs (Tallies x (chainRight _ _ _))

instance : Tallies x (commonTableQuery (level n)) := by
  unfold commonTableQuery
  infer_instance

instance : Tallies x (commonTable (level n)) := by
  apply next
  rintro (_ | head) <;> infer_instance

instance : Tallies x (commonTables (level n)) := by
  unfold commonTables
  infer_instance

instance (location : Location) (tables : List CommonTable) (query? : Option Query) :
    Tallies x (withTables location tables query?) := by
  unfold withTables
  cases query? <;> infer_instance

instance : Tallies x (queryStatement (level n)) := by
  rw [queryStatement_eq]
  infer_instance

end Parser.Tallies

/-- At every level of nesting. -/
instance dangles_level (n : Nat) : (level n).Dangles x := by
  induction n with
  | zero =>
      exact ⟨inferInstanceAs (Tallies x (tooDeep _)), inferInstanceAs (Tallies x (tooDeep _)),
        inferInstanceAs (Dangles x 0 (tooDeep _)), inferInstanceAs (Dangles x 0 (tooDeep _)),
        inferInstanceAs (Settles x 0 (tooDeep _))⟩
  | succ n ih =>
      exact ⟨inferInstanceAs (Tallies x (queryStatement (level n))),
        inferInstanceAs (Tallies x (tableSource (level n))),
        inferInstanceAs (Dangles x 0 (disjunction (level n))),
        inferInstanceAs (Dangles x 0 (negation (level n))),
        inferInstanceAs (Settles x 0 (signed (level n)))⟩

end QueryNames.Grammar
