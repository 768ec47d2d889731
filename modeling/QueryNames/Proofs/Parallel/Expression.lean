import QueryNames.Proofs.Parallel.Rules

/-!
Names and expressions are read alike, in parentheses and alone.
-/

namespace QueryNames.Grammar.Parser

open Token

variable {border : Border}

/-! The arguments of a data type. -/

theorem typeArguments_advances : Advances typeArguments := by
  refine .bind (.collect (.bind .look fun t => ?_)) fun _ => .pure
  split
  · exact .pure
  · exact .bind (.move Cursor.advance_suffix) fun _ => .pure

theorem collect_typeArgument_stop {c : Cursor}
    (ends : (c.current.isEnd || c.current.isPunctuation .rightParen) = true) :
    collect typeArgument ⟨c, []⟩ = (some [], ⟨c, []⟩) := by
  have round : typeArgument ⟨c, []⟩ = (some (none, false), ⟨c, []⟩) := by
    simp only [typeArgument, Parser.current, Parser.look, bind_apply, ends, if_true]
    rfl
  exact collect_stop round

theorem collect_typeArgument_step {c : Cursor} {t : Token} {ts : List Token}
    (ahead : c.ahead = t :: ts)
    (goesOn : (c.current.isEnd || c.current.isPunctuation .rightParen) = false)
    {parts : List String} {s : State}
    (rest : collect typeArgument ⟨⟨t, ts⟩, []⟩ = (some parts, s)) :
    collect typeArgument ⟨c, []⟩ =
      (some ((if c.current.isPunctuation .comma then ", " else c.current.text) :: parts), s) := by
  have inside : c.isAtEnd = false := (Bool.or_eq_false_iff.1 goesOn).1
  have moved : c.advance = ⟨t, ts⟩ := by simp [Cursor.advance, inside, ahead]
  have round : typeArgument ⟨c, []⟩ = (some (some (if c.current.isPunctuation .comma then ", "
      else c.current.text), true), ⟨⟨t, ts⟩, []⟩) := by
    simp only [typeArgument, Parser.current, Parser.look, bind_apply, goesOn,
      Bool.false_eq_true, if_false, Parser.advance, Parser.move, moved]
    rfl
  have fewer : (State.mk ⟨t, ts⟩ []).remaining < (State.mk c []).remaining := by
    simp [State.remaining, Cursor.remaining, ahead]
  exact collect_more round fewer rest

/-- The arguments of a type end at the parenthesis, where the shorter text may have its end. -/
theorem collect_typeArgument {c d : Cursor} (along : Along border c.tokens d.tokens) :
    ∃ parts parts' c' d', collect typeArgument ⟨c, []⟩ = (some parts, ⟨c', []⟩) ∧
      collect typeArgument ⟨d, []⟩ = (some parts', ⟨d', []⟩) ∧
      Along border c'.tokens d'.tokens := by
  obtain ⟨t, ts⟩ := c
  obtain ⟨u, us⟩ := d
  induction ts generalizing t u us with
  | nil =>
      cases along with
      | last ends =>
          have stops : t.kind = .endOfInput := ends
          refine ⟨[], [], _, _, collect_typeArgument_stop ?_, collect_typeArgument_stop ?_,
            .last ends⟩
          · simp [isEnd, stops]
          · simp [isPunctuation, border.isClose]
      | next _ _ _ rest => exact absurd rfl rest.ne_nil
  | cons next ts ih =>
      cases along with
      | next kind text goesOn rest =>
          cases us with
          | nil => exact absurd rest.length (by simp; omega)
          | cons next' us =>
              have kinds : t.kind = u.kind := kind
              have same : (u.isEnd || u.isPunctuation .rightParen) =
                  (t.isEnd || t.isPunctuation .rightParen) := by
                simp only [isEnd, isPunctuation, kinds]
              cases ends : (t.isEnd || t.isPunctuation .rightParen) with
              | true =>
                  exact ⟨[], [], _, _, collect_typeArgument_stop ends,
                    collect_typeArgument_stop (same.trans ends), .next kind text goesOn rest⟩
              | false =>
                  obtain ⟨parts, parts', c', d', run, run', after⟩ := ih next next' us rest
                  have whole := collect_typeArgument_step (c := ⟨t, next :: ts⟩) rfl ends run
                  have whole' :=
                    collect_typeArgument_step (c := ⟨u, next' :: us⟩) rfl (same.trans ends) run'
                  exact ⟨_, _, c', d', whole, whole', after⟩

namespace MatchesFrom

variable {P : Cursor → Cursor → Prop}

/-! Names and data types. -/

theorem identifier : MatchesFrom border P identifier identifier := by
  refine .current fun t u meets => ?_
  have kinds : (t.kind == .identifier) = (u.kind == .identifier) :=
    meets.of_kind (f := (· == .identifier)) (TokenKind.forall_edge rfl rfl rfl rfl rfl)
  rw [← kinds]
  by_cases named : (t.kind == .identifier) = true
  · rw [if_pos named, if_pos named]
    have kind : t.kind = .identifier := beq_iff_eq.1 named
    refine bind (advance fun c d start => ?_) fun _ _ _ => pure ?_
    · rw [start.2.1, kind]
      exact nofun
    · rcases meets with ⟨-, text⟩ | ⟨ends, -⟩
      · exact congrArg nameValue text
      · rw [kind] at ends
        contradiction
  · rw [if_neg named, if_neg named]
    exact giveUp

theorem requireIdentifier {expected : Expected} :
    MatchesFrom border P (requireIdentifier expected) (requireIdentifier expected) :=
  identifier.attempt.bindOption missing fun _ _ same => pure same

theorem values_eq {first first' : Identifier} {others others' : List Identifier}
    (same : imprint first = imprint first') (alike : imprint others = imprint others') :
    imprint (QualifiedName.mk first others) = imprint (QualifiedName.mk first' others') := by
  have values : first.value = first'.value := same
  have rest : others.map (·.value) = others'.map (·.value) := alike
  show first.value :: others.map (·.value) = first'.value :: others'.map (·.value)
  rw [values, rest]

theorem qualifiedName : MatchesFrom border P qualifiedName qualifiedName := by
  refine identifier.attempt.bindOption missing fun first first' same => ?_
  refine bind (collect ?_) fun others others' alike => pure (values_eq same alike)
  refine ifPunctuation nofun ?_ (pure rfl)
  refine check (blind_isPunctuation nofun) fun again => ?_
  cases again with
  | true => exact pure rfl
  | false =>
      refine identifier.attempt.bindOption ?_ fun part part' same => ?_
      · exact reportMissing.bind fun _ _ _ => pure rfl
      · exact pure (congrArg (·, true) (congrArg some same))

theorem identifierList :
    MatchesFrom border (fun c _ => c.current.kind = .punctuation .leftParen)
      identifierList identifierList := by
  refine bind (advance fun c d start => ?_) fun _ _ _ => ?_
  · rw [start]
    exact nofun
  · refine bind (commaList halting_endsItem requireIdentifier) fun names names' same => ?_
    exact closeParen.bind fun _ _ _ => pure same

theorem columnNames : MatchesFrom border P columnNames columnNames := by
  refine check (blind_isPunctuation nofun) fun opens => ?_
  cases opens with
  | false => exact pure rfl
  | true =>
      refine identifierList.weaken fun c d start => ?_
      exact Token.isPunctuation_iff.1 start.2.1

/-- Where the shorter text is at its end nothing closes the arguments. -/
theorem typeArguments_closed [Imprinting γ δ] {g g' : String → Unit → Parser γ}
    (rest : ∀ a b, Matches border (g a ()) (g' b ())) :
    Matches border (Parser.typeArguments >>= fun a => Parser.closeParen >>= g a)
      (Parser.typeArguments >>= fun b => Parser.closeParen >>= g' b) where
  left := typeArguments_advances.bind fun a => closeParen_advances.bind fun _ => (rest a a).left
  right := typeArguments_advances.bind fun a => closeParen_advances.bind fun _ => (rest a a).right
  runs := by
    have found (e e' : Cursor) (parts : List String)
        (run : Parser.collect typeArgument ⟨e, []⟩ = (some parts, ⟨e', []⟩)) :
        Parser.typeArguments ⟨e, []⟩ = (some (String.join parts), ⟨e', []⟩) := by
      rw [Parser.typeArguments, bind_apply, run]
      rfl
    intro c d near _
    by_cases ends : c.current.kind = .endOfInput
    · left
      left
      have stop := found c c [] (collect_typeArgument_stop (by simp [isEnd, ends]))
      rw [bind_apply, stop]
      refine Triple.ends (P := fun s => s.cursor.current.isPunctuation .rightParen = false)
        (.bind closeParen_complains fun _ => (rest _ "").left.complained) ?_
      simp [isPunctuation, ends]
    · cases near with
      | past stops => exact absurd stops ends
      | along along =>
          obtain ⟨parts, parts', c', d', run, run', after⟩ := collect_typeArgument along
          rw [bind_apply, bind_apply, found c c' parts run, found d d' parts' run']
          have closed : Matches border (Parser.closeParen >>= g (String.join parts))
              (Parser.closeParen >>= g' (String.join parts')) :=
            closeParen.bind fun _ _ _ => rest _ _
          rcases closed.runs c' d' (.along after) trivial with spoilt | agree
          · exact .inl spoilt
          · exact .inr ⟨agree.results, agree.quiet, agree.quiet', agree.near,
              fun stops => absurd stops ends⟩

theorem dataType : MatchesFrom border P dataType dataType := by
  refine qualifiedName.bind fun name name' _ => ?_
  refine ifPunctuation nofun ?_ (pure rfl)
  exact typeArguments_closed fun _ _ => pure rfl

/-! Parts of expressions that hold no level of their own. -/

theorem leaf {e e' : Expression} (same : imprint e = imprint e')
    (goesOn : ∀ c d, P c d → c.current.kind ≠ .endOfInput) :
    MatchesFrom border P (leaf e) (leaf e') :=
  (advance goesOn).bind fun _ _ _ => pure same

theorem operator? [Imprinting ω ω] {table : TokenKind → Option ω}
    (edges : ∀ k : TokenKind, k.isEdge = true → table k = table .endOfInput)
    (stop : table .endOfInput = none) :
    MatchesFrom border P (operator? table) (Parser.operator? table) := by
  refine current fun t u meets => ?_
  have same : table t.kind = table u.kind := meets.of_kind edges
  rw [← same]
  cases found : table t.kind with
  | none => exact pure rfl
  | some op =>
      refine bind (advance fun c d start ends => ?_) fun _ _ _ => pure rfl
      rw [start.2.1] at ends
      rw [ends, stop] at found
      contradiction

theorem binaries {operand operand' : Parser Expression}
    {table : TokenKind → Option BinaryOperator}
    (edges : ∀ k : TokenKind, k.isEdge = true → table k = table .endOfInput)
    (stop : table .endOfInput = none) (matches_ : Matches border operand operand') :
    Matches border (Parser.chainLeft operand (Parser.operator? table) .binary)
      (Parser.chainLeft operand' (Parser.operator? table) .binary) := by
  refine chainLeft matches_ (operator? edges stop) fun op a b a' b' left right => ?_
  simp only [imprint] at left right
  simp [imprint, Expression.outline, Node.marks, left, right]

theorem nullTest {left left' : Expression} (same : imprint left = imprint left') :
    Matches border (nullTest left) (nullTest left') := by
  refine bindExact (acceptKeyword nofun nofun nofun) fun negated => ?_
  refine bindExact (succeeds (requireKeyword nofun nofun nofun)) fun isNull => ?_
  cases isNull with
  | false => exact pure same
  | true =>
      refine pure ?_
      simp only [imprint] at same
      simp [imprint, Expression.outline, Node.marks, same]

end MatchesFrom

/-- The parsers of two levels find the same. -/
structure LevelMatches (border : Border) (inner inner' : Level) : Prop where
  query : Matches border inner.query inner'.query
  source : Matches border inner.source inner'.source
  expression : Matches border inner.expression inner'.expression
  negation : Matches border inner.negation inner'.negation
  signed : Matches border inner.signed inner'.signed

namespace LevelMatches

variable {inner inner' : Level} (h : LevelMatches border inner inner')
  {P : Cursor → Cursor → Prop}

include h

/-! Subqueries, lists and windows. -/

omit h in
theorem marks_of_imprint {query query' : Query} (same : imprint query = imprint query') :
    query.outline.marks = query'.outline.marks := by
  obtain ⟨common, own, joined⟩ : query.commonMarks = query'.commonMarks ∧
      query.ownMarks = query'.ownMarks ∧ query.joinedMarks = query'.joinedMarks := by
    simpa [imprint] using same
  rw [query.marks_outline, query'.marks_outline, common, own, joined]

omit h in
theorem getD_imprint [Imprinting α β] {as? bs? : Option (List α)}
    (same : imprint as? = imprint bs?) : imprint (as?.getD []) = imprint (bs?.getD []) := by
  obtain ⟨rfl, rfl⟩ | ⟨as, bs, rfl, rfl, alike⟩ := option_of_imprint same
  · rfl
  · exact alike

theorem subquery : MatchesFrom border P (subquery inner) (subquery inner') := by
  refine .look (fun _ _ near _ => near.opensQuery) fun opens => ?_
  cases opens with
  | false => exact .missing
  | true =>
      refine .bind (.advance fun c d start ends => ?_) fun _ _ _ => ?_
      · have opens : c.opensQuery = true := start.2.1
        simp [Cursor.opensQuery, isPunctuation, ends] at opens
      · refine h.query.attempt.bind fun query? query?' same => ?_
        exact MatchesFrom.closeParen.bind fun _ _ _ => .ofOption same

theorem expressionList : Matches border (expressionList inner) (expressionList inner') :=
  .commaList halting_endsItem h.expression

theorem orderItem : Matches border (orderItem inner) (orderItem inner') := by
  refine h.expression.bind fun e e' same => ?_
  have item (ascending : Option Bool) :
      imprint (OrderItem.mk e ascending) = imprint (OrderItem.mk e' ascending) := by
    simp only [imprint] at same
    simp [imprint, OrderItem.outline, Node.marks, same]
  refine .bindExact (.acceptKeyword nofun nofun nofun) fun ascending => ?_
  cases ascending with
  | true => exact .pure (item _)
  | false =>
      refine .bindExact (.acceptKeyword nofun nofun nofun) fun descending => ?_
      cases descending with
      | true => exact .pure (item _)
      | false => exact .pure (item _)

theorem orderList : Matches border (orderList inner) (orderList inner') :=
  .commaList halting_endsOrderItem h.orderItem

theorem argument : Matches border (argument inner) (argument inner') := by
  refine .current fun t u meets => ?_
  have stars : (t.kind == .star) = (u.kind == .star) :=
    meets.of_kind (f := (· == .star)) (TokenKind.forall_edge rfl rfl rfl rfl rfl)
  rw [← stars]
  by_cases star : (t.kind == .star) = true
  · rw [if_pos star, if_pos star]
    refine .bind (.advance fun c d start ends => ?_) fun _ _ _ => .pure ?_
    · rw [start.2.1, beq_iff_eq.1 star] at ends
      contradiction
    · simp [imprint, Expression.outline, Column.outline, Node.marks]
  · rw [if_neg star, if_neg star]
    exact .always h.expression

theorem arguments : Matches border (arguments inner) (arguments inner') := by
  have list := MatchesFrom.commaList halting_endsItem h.argument
  refine .ifClosing (.pure rfl) (.always (list.bind fun es es' same =>
    .bindExact .closeParen fun _ => .pure same)) ?_
  refine .bind (Total.triple list.left.stopped) fun es => ?_
  refine .bind (closeParen_complains.weaken ?_ (fun _ _ => id) (fun _ => id)) fun _ =>
    .pure fun _ => id
  intro s stopped
  simp [isPunctuation, stopped.2]

theorem window : Matches border (window inner) (window inner') := by
  refine .bindExact (.requirePunctuation nofun) fun _ => .bindExact .acceptWord fun parts => ?_
  refine .bind (.onlyIf (.bindExact (.requireKeyword nofun nofun nofun) fun _ =>
    h.expressionList)) fun partition? partition?' samePartition => ?_
  refine .bindExact (.acceptKeyword nofun nofun nofun) fun orders => ?_
  refine .bind (.onlyIf (.bindExact (.requireKeyword nofun nofun nofun) fun _ =>
    h.orderList)) fun order? order?' sameOrder => ?_
  refine .check (fun t u meets => ?_) fun framed => ?_
  · simp only [blind_isWord t u meets]
  · refine .bindExact (.onlyIf .skipGroup) fun _ => .bindExact .closeParen fun _ => .pure ?_
    have parts := flatMap_imprint (getD_imprint samePartition)
    have items := flatMap_imprint (getD_imprint sameOrder)
    simp only [imprint] at parts items ⊢
    rw [parts, items]

theorem call {name name' : QualifiedName} :
    MatchesFrom border (fun c _ => c.current.kind = .punctuation .leftParen)
      (call inner name) (call inner' name') := by
  refine .bindExact (.advance fun c d start ends => ?_) fun _ => ?_
  · rw [start] at ends
    contradiction
  · refine .bindExact (.acceptKeyword nofun nofun nofun) fun distinct => ?_
    refine .bindExact (.onlyIf (.acceptKeyword nofun nofun nofun)) fun _ => ?_
    refine .bind h.arguments fun list list' same => ?_
    have arguments := flatMap_imprint same
    refine .bindExact .acceptWord fun within => ?_
    refine .bindExact (.onlyIf (.bindExact (.acceptKeyword nofun nofun nofun) fun _ =>
      .skipParenthesized)) fun _ => ?_
    refine .bindExact (.acceptKeyword nofun nofun nofun) fun windowed => ?_
    cases windowed with
    | true =>
        rw [if_pos rfl, if_pos rfl]
        refine .bind h.window fun window window' alike => .pure ?_
        simp only [imprint] at arguments alike
        simp [imprint, Expression.outline, Node.marks, List.flatMap_map, arguments, alike]
    | false =>
        refine .pure ?_
        simp only [imprint] at arguments
        simp [imprint, Expression.outline, Node.marks, List.flatMap_map, arguments]

/-! Primary expressions. -/

theorem whenBranch : Matches border (whenBranch inner) (whenBranch inner') := by
  refine .ifKeyword nofun nofun nofun ?_ (.pure rfl)
  refine .bind h.expression fun condition condition' same => ?_
  refine .bindExact (.requireKeyword nofun nofun nofun) fun _ => ?_
  refine .bind h.expression fun result result' alike => .pure ?_
  simp only [imprint] at same alike
  simp [imprint, same, alike]

theorem caseExpression :
    MatchesFrom border (fun c _ => c.current.kind = .keyword .case)
      (caseExpression inner) (caseExpression inner') := by
  refine .bindExact (.advance fun c d start ends => ?_) fun _ => ?_
  · rw [start] at ends
    contradiction
  · refine .check (blind_isKeyword nofun nofun nofun) fun plain => ?_
    refine .bind (.requiredIf (.always h.expression)) fun operand? operand?' sameOperand => ?_
    refine .bind (.collect h.whenBranch) fun branches branches' sameBranches => ?_
    have empty : branches.isEmpty = branches'.isEmpty := by
      have length := congrArg List.length sameBranches
      cases branches <;> cases branches' <;> simp_all [imprint]
    rw [empty]
    cases branches'.isEmpty with
    | true => exact .missing
    | false =>
        refine .bindExact (.acceptKeyword nofun nofun nofun) fun otherwise => ?_
        refine .bind (.requiredIf h.expression) fun otherwise? otherwise?' sameOtherwise => ?_
        refine .bindExact (.requireKeyword nofun nofun nofun) fun _ => .pure ?_
        have operands := flatMap_toList sameOperand
        have results := flatMap_imprint sameBranches
        have others := flatMap_toList sameOtherwise
        simp only [imprint] at operands results others
        simp [imprint, Expression.outline, Node.marks, List.flatMap_map, List.flatMap_assoc,
          operands, results, others]

theorem castExpression :
    MatchesFrom border
      (fun c _ => c.current.kind = .identifier ∧ (c.peek 1).isPunctuation .leftParen = true)
      (castExpression inner) (castExpression inner') := by
  refine .advanceInto (Q := fun c _ => c.current.kind = .punctuation .leftParen)
    (fun c d start ends => ?_) (fun c d near start left _ => ?_) ?_
  · rw [start.1] at ends
    contradiction
  · rw [left]
    exact Token.isPunctuation_iff.1 start.2
  · refine .bindExact (.advance fun c d start ends => ?_) fun _ => ?_
    · rw [start] at ends
      contradiction
    · refine .bind h.expression fun e e' same => ?_
      refine .bindExact (.requireKeyword nofun nofun nofun) fun _ => ?_
      refine .bind .dataType fun type type' _ => .bindExact .closeParen fun _ => .pure ?_
      simp only [imprint] at same
      simp [imprint, Expression.outline, Node.marks, same]

theorem convertExpression :
    MatchesFrom border (fun c _ => c.current.kind ≠ .endOfInput)
      (convertExpression inner) (convertExpression inner') := by
  refine .bindExact (.advance fun c d start => start) fun _ => ?_
  refine .bindExact (.requirePunctuation nofun) fun _ => .bind .dataType fun type type' _ => ?_
  refine .bindExact (.requirePunctuation nofun) fun _ => .bind h.expression fun e e' same => ?_
  refine .bindExact (.acceptPunctuation nofun) fun styled => ?_
  refine .bind (.requiredIf h.expression) fun style? style?' alike => ?_
  refine .bindExact .closeParen fun _ => .pure ?_
  have styles := flatMap_toList alike
  simp only [imprint] at same styles
  simp [imprint, Expression.outline, Node.marks, List.flatMap_map, same, styles]

theorem existsExpression :
    MatchesFrom border (fun c _ => c.current.kind = .keyword .exists)
      (existsExpression inner) (existsExpression inner') := by
  refine .bindExact (.advance fun c d start ends => ?_) fun _ => ?_
  · rw [start] at ends
    contradiction
  · refine .bind h.subquery fun query query' same => .pure ?_
    simp [imprint, Expression.outline, Node.marks, marks_of_imprint same]

theorem parenthesized :
    MatchesFrom border (fun c _ => c.current.kind = .punctuation .leftParen)
      (parenthesized inner) (parenthesized inner') := by
  refine .look (fun _ _ near _ => near.opensQuery) fun opens => ?_
  cases opens with
  | true =>
      refine .bind h.subquery fun query query' same => .pure ?_
      simp [imprint, Expression.outline, Node.marks, marks_of_imprint same]
  | false =>
      refine .bindExact (.advance fun c d start ends => ?_) fun _ => ?_
      · rw [start.1] at ends
        contradiction
      · refine .bind h.expression.attempt fun e? e?' same => .bindExact .closeParen fun _ => ?_
        refine .bind (.ofOption same) fun e e' alike => .pure ?_
        simp only [imprint] at alike
        simp [imprint, Expression.outline, Node.marks, alike]

theorem columnOrCall : MatchesFrom border P (columnOrCall inner) (columnOrCall inner') := by
  refine .place fun location location' => .bind .qualifiedName fun name name' same => ?_
  refine .check (blind_isPunctuation nofun) fun opens => ?_
  cases opens with
  | true =>
      refine h.call.weaken fun c d start => ?_
      exact Token.isPunctuation_iff.1 start.2.1
  | false =>
      refine .pure ?_
      simp only [imprint] at same
      simp [imprint, Expression.outline, Column.outline, Node.marks, same]

theorem named {t u next next' : Token} (kind : t.kind = .identifier) (meets : Meets t u)
    (ahead : Meets next next') :
    MatchesFrom border (fun c _ => c.current = t ∧ c.peek 1 = next)
      (named inner t next) (named inner' u next') := by
  have plain := blind_isPlainName t u meets
  have words : (fun word => t.isWord word) = fun word => u.isWord word :=
    funext fun word => blind_isWord t u meets
  have called := blind_isPunctuation (p := .leftParen) nofun next next' ahead
  have dotted := blind_isPunctuation (p := .period) nofun next next' ahead
  have cast : t.isWord "CAST" = u.isWord "CAST" := blind_isWord t u meets
  have tryCast : t.isWord "TRY_CAST" = u.isWord "TRY_CAST" := blind_isWord t u meets
  have tryConvert : t.isWord "TRY_CONVERT" = u.isWord "TRY_CONVERT" := blind_isWord t u meets
  simp only [Parser.named, ← plain, ← words, ← called, ← dotted, ← cast, ← tryCast, ← tryConvert]
  split
  · rename_i casts
    refine h.castExpression.weaken ?_
    rintro c d ⟨rfl, rfl⟩
    exact ⟨kind, (Bool.and_eq_true_iff.1 (Bool.and_eq_true_iff.1 casts).1).2⟩
  · split
    · refine h.convertExpression.weaken ?_
      rintro c d ⟨rfl, rfl⟩ ends
      rw [kind] at ends
      contradiction
    · split
      · refine .bindExact (.advance ?_) fun _ => .pure ?_
        · rintro c d ⟨rfl, rfl⟩ ends
          rw [kind] at ends
          contradiction
        · simp [imprint, Expression.outline, Node.marks]
      · exact h.columnOrCall

/-- A keyword that is called like a function. -/
theorem calledKeyword {t next next' : Token} (goesOn : t.kind ≠ .endOfInput)
    (ahead : Meets next next') {name name' : QualifiedName} :
    MatchesFrom border (fun c _ => c.current = t ∧ c.peek 1 = next)
      (if next.isPunctuation .leftParen then Parser.advance >>= fun _ => Parser.call inner name
        else Parser.missing .expression)
      (if next'.isPunctuation .leftParen then Parser.advance >>= fun _ => Parser.call inner' name'
        else Parser.missing .expression) := by
  rw [← blind_isPunctuation (p := .leftParen) nofun next next' ahead]
  split
  · rename_i opens
    refine .advanceInto ?_ ?_ h.call
    · rintro c d ⟨rfl, -⟩
      exact goesOn
    · rintro c d near ⟨-, rfl⟩ left -
      rw [left]
      exact Token.isPunctuation_iff.1 opens
  · exact .missing

theorem primary : Matches border (primary inner) (primary inner') := by
  refine .current fun t u meets => ?_
  refine .peek (Q := t.kind ≠ .endOfInput) (fun inside c d start => start.2.1 ▸ inside)
    fun next next' ahead => ?_
  have same := meets
  rcases meets with ⟨kind, text⟩ | ⟨ends, edge⟩
  · have marks (e e' : Expression) (plain : e.outline.marks = []) (plain' : e'.outline.marks = [])
        (inside : t.kind ≠ .endOfInput) :
        MatchesFrom border (fun c d => (True ∧ c.current = t ∧ d.current = u) ∧ c.peek 1 = next ∧
          d.peek 1 = next') (leaf e) (leaf e') :=
      .leaf (by simp [imprint, plain, plain']) fun c d start => start.1.2.1 ▸ inside
    rw [← kind]
    split
    · rename_i kind
      exact marks _ _ (by simp [Expression.outline, Node.marks])
        (by simp [Expression.outline, Node.marks]) (by simp [kind])
    · rename_i kind
      exact marks _ _ (by simp [Expression.outline, Node.marks])
        (by simp [Expression.outline, Node.marks]) (by simp [kind])
    · rename_i kind
      exact marks _ _ (by simp [Expression.outline, Node.marks])
        (by simp [Expression.outline, Node.marks]) (by simp [kind])
    · rename_i kind
      exact marks _ _ (by simp [Expression.outline, Node.marks])
        (by simp [Expression.outline, Node.marks]) (by simp [kind])
    · rename_i kind
      exact h.caseExpression.weaken fun c d start => start.1.2.1 ▸ kind
    · rename_i kind
      refine h.convertExpression.weaken fun c d start ends => ?_
      rw [start.1.2.1, kind] at ends
      contradiction
    · rename_i kind
      exact h.existsExpression.weaken fun c d start => start.1.2.1 ▸ kind
    · rename_i kind
      have inside : t.kind ≠ .endOfInput := by simp [kind]
      exact (h.calledKeyword inside (ahead inside)).weaken fun c d start => ⟨start.1.2.1, start.2.1⟩
    · rename_i kind
      have inside : t.kind ≠ .endOfInput := by simp [kind]
      exact (h.calledKeyword inside (ahead inside)).weaken fun c d start => ⟨start.1.2.1, start.2.1⟩
    · rename_i kind
      exact h.parenthesized.weaken fun c d start => start.1.2.1 ▸ kind
    · rename_i kind
      exact (h.named kind same (ahead (by simp [kind]))).weaken fun c d start =>
        ⟨start.1.2.1, start.2.1⟩
    · exact .missing
  · rw [ends]
    generalize u.kind = k at edge
    unfold TokenKind.isEdge at edge
    split at edge
    · exact .missing
    · exact .missing
    · exact .missing
    · exact .missing
    · exact .missing
    · contradiction

/-! Operators. -/

theorem signs : Matches border (Parser.signed inner) (Parser.signed inner') := by
  refine .bindExact (.operator? (TokenKind.forall_edge rfl rfl rfl rfl rfl) rfl) fun op? => ?_
  cases op? with
  | none => exact h.primary
  | some op =>
      refine .bind h.signed fun e e' same => .pure ?_
      simp only [imprint] at same
      simp [imprint, Expression.outline, Node.marks, same]

theorem multiplicative : Matches border (multiplicative inner) (multiplicative inner') :=
  .binaries (TokenKind.forall_edge rfl rfl rfl rfl rfl) rfl h.signs

theorem additive : Matches border (additive inner) (additive inner') :=
  .binaries (TokenKind.forall_edge rfl rfl rfl rfl rfl) rfl h.multiplicative

theorem comparand : Matches border (comparand inner) (comparand inner') := by
  have opens := blind_isPunctuation (p := .leftParen) nofun
  refine .check (fun t u meets => ?_) fun quantified => ?_
  · simp only [blind_isWord t u meets, blind_isKeyword (k := .all) nofun nofun nofun t u meets]
  · refine .peek (Q := quantified = true) (fun quantifies c d start ends => ?_)
      fun next next' ahead => ?_
    · have here := start.2.1
      simp [isKeyword, isWord, ends, quantifies] at here
    · cases quantified with
      | false => exact .always h.additive
      | true =>
          rw [opens next next' (ahead rfl)]
          split
          · refine .bindExact (.advance fun c d start ends => ?_) fun _ => ?_
            · have here := start.1.2.1
              simp [isKeyword, isWord, ends] at here
            · refine .bind h.subquery fun query query' same => .pure ?_
              simp [imprint, Expression.outline, Node.marks, marks_of_imprint same]
          · exact .always h.additive

theorem membership {left left' : Expression} (same : imprint left = imprint left')
    (negated : Bool) :
    Matches border (membership inner left negated) (membership inner' left' negated) := by
  have marks : left.outline.marks = left'.outline.marks := same
  refine .look (fun _ _ near _ => near.opensQuery) fun opens => ?_
  cases opens with
  | true =>
      refine .bindOption h.subquery.attempt (.pure same) fun query query' alike => .pure ?_
      simp [imprint, Expression.outline, Node.marks, marks, marks_of_imprint alike]
  | false =>
      refine .ifPunctuation nofun ?_ ?_
      · refine .bind h.expressionList fun list list' alike =>
          .bindExact .closeParen fun _ => .pure ?_
        have members := flatMap_imprint alike
        simp only [imprint] at members
        simp [imprint, Expression.outline, Node.marks, List.flatMap_map, marks, members]
      · exact .bind .reportMissing fun _ _ _ => .pure same

theorem range {left left' : Expression} (same : imprint left = imprint left') (negated : Bool) :
    Matches border (range inner left negated) (range inner' left' negated) := by
  have marks : left.outline.marks = left'.outline.marks := same
  refine .bindOption (.attempt (.bind h.additive fun low low' sameLow =>
    .bindExact (.requireKeyword nofun nofun nofun) fun _ =>
    .bind h.additive fun high high' sameHigh => .pure (Prod.ext sameLow sameHigh)))
    (.pure same) ?_
  rintro ⟨low, high⟩ ⟨low', high'⟩ alike
  refine .pure ?_
  obtain ⟨sameLow, sameHigh⟩ : low.outline.marks = low'.outline.marks ∧
      high.outline.marks = high'.outline.marks := Prod.mk.inj alike
  simp [imprint, Expression.outline, Node.marks, marks, sameLow, sameHigh]

theorem pattern {left left' : Expression} (same : imprint left = imprint left')
    (negated : Bool) :
    Matches border (pattern inner left negated) (pattern inner' left' negated) := by
  have marks : left.outline.marks = left'.outline.marks := same
  refine .bindOption h.additive.attempt (.pure same) fun pattern pattern' alike => ?_
  refine .bindExact (.acceptKeyword nofun nofun nofun) fun escaped => ?_
  refine .bind (.onlyIf h.additive) fun escape? escape?' sameEscape => .pure ?_
  have escapes := flatMap_toList sameEscape
  simp only [imprint] at alike escapes
  simp [imprint, Expression.outline, Node.marks, List.flatMap_map, marks, alike, escapes]

theorem condition {left left' : Expression} (same : imprint left = imprint left') :
    Matches border (condition inner left) (condition inner' left') := by
  refine .peek (Q := False) (fun never => never.elim) fun next next' _ => ?_
  refine .bindExact (.acceptFrom (fun c d near start => ?_) fun t ends => ?_) fun negated => ?_
  · have same := blind_isKeyword (k := .not) nofun nofun nofun _ _ near.meets
    by_cases ends : c.current.kind = .endOfInput
    · have none := isKeyword_eq_false (k := .not) ends nofun
      rw [← same, none, Bool.false_and, Bool.false_and]
    · have ahead := near.peek ends
      rw [start.2.1, start.2.2] at ahead
      simp only [same, blind_isKeyword (k := .in) nofun nofun nofun _ _ ahead,
        blind_isKeyword (k := .between) nofun nofun nofun _ _ ahead,
        blind_isKeyword (k := .like) nofun nofun nofun _ _ ahead]
  · rw [isKeyword_eq_false ends nofun, Bool.false_and]
  · refine .bindExact (.acceptKeyword nofun nofun nofun) fun isIn => ?_
    cases isIn with
    | true => exact h.membership same negated
    | false =>
        refine .bindExact (.acceptKeyword nofun nofun nofun) fun isBetween => ?_
        cases isBetween with
        | true => exact h.range same negated
        | false =>
            refine .bindExact (.acceptKeyword nofun nofun nofun) fun isLike => ?_
            cases isLike with
            | true => exact h.pattern same negated
            | false => exact .pure same

theorem predicate : Matches border (predicate inner) (predicate inner') := by
  refine .check (blind_isKeyword nofun nofun nofun) fun exists_ => ?_
  cases exists_ with
  | true =>
      refine h.existsExpression.weaken fun c d start => ?_
      exact Token.isKeyword_iff.1 start.2.1
  | false =>
      refine .bind (.always h.additive) fun left left' same => ?_
      refine .bindExact (.operator? (TokenKind.forall_edge rfl rfl rfl rfl rfl) rfl) fun op? => ?_
      cases op? with
      | some op =>
          refine .bindOption h.comparand.attempt (.pure same) fun right right' alike => .pure ?_
          simp only [imprint] at same alike
          simp [imprint, Expression.outline, Node.marks, same, alike]
      | none =>
          refine .bindExact (.acceptKeyword nofun nofun nofun) fun isNull => ?_
          cases isNull with
          | true => exact .nullTest same
          | false => exact h.condition same

theorem negations : Matches border (Parser.negation inner) (Parser.negation inner') := by
  refine .bindExact (.acceptKeyword nofun nofun nofun) fun negated => ?_
  cases negated with
  | true =>
      refine .bind h.negation fun e e' same => .pure ?_
      simp only [imprint] at same
      simp [imprint, Expression.outline, Node.marks, same]
  | false => exact h.predicate

theorem conjunction : Matches border (conjunction inner) (conjunction inner') :=
  .binaries (TokenKind.forall_edge rfl rfl rfl rfl rfl) rfl h.negations

theorem disjunction : Matches border (disjunction inner) (disjunction inner') :=
  .binaries (TokenKind.forall_edge rfl rfl rfl rfl rfl) rfl h.conjunction

end LevelMatches

end QueryNames.Grammar.Parser
