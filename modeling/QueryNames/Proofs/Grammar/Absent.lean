import QueryNames.Grammar.Query

/-!
What is left out. A part of a query whose first word is not there is passed over without a
complaint, and so a query whose last clause names one table ends with it.
-/

namespace QueryNames.Grammar

/-- What is asked for is not there. -/
class Unset (b : Bool) : Prop where
  eq : b = false

instance : Unset false := ⟨rfl⟩

namespace Parser

variable {s : State}

theorem bind_some {p : Parser α} {f : α → Parser β} {a : α} {s' : State}
    (run : p s = (some a, s')) : (p >>= f) s = f a s' := by
  rw [bind_apply, run]

theorem exists_of_bind {p : Parser α} {f : α → Parser β} {b : β} {s' : State}
    (run : (p >>= f) s = (some b, s')) :
    ∃ a s'', p s = (some a, s'') ∧ f a s'' = (some b, s') := by
  rw [bind_apply] at run
  rcases first : p s with ⟨_ | a, s''⟩ <;> rw [first] at run
  · cases run
  · exact ⟨a, s'', rfl, run⟩

theorem looks (f : Cursor → α) (s : State) : look f s = (some (f s.cursor), s) := rfl

theorem accept_absent {q : Token → Bool} (absent : q s.cursor.current = false) :
    accept q s = (some false, s) := by
  simp [accept, absent]

theorem accept_present {q : Token → Bool} (present : q s.cursor.current = true) :
    accept q s = (some true, { s with cursor := s.cursor.advance }) := by
  simp [accept, present]

theorem requireKeyword_present {k : Keyword} (is : s.cursor.current.kind = .keyword k) :
    requireKeyword k s = (some (), { s with cursor := s.cursor.advance }) := by
  rw [requireKeyword, acceptKeyword, bind_some (accept_present (by simp [Token.isKeyword, is]))]
  rfl

theorem requirePunctuation_present {p : Punctuation}
    (is : s.cursor.current.kind = .punctuation p) :
    requirePunctuation p s = (some (), { s with cursor := s.cursor.advance }) := by
  rw [requirePunctuation, acceptPunctuation,
    bind_some (accept_present (by simp [Token.isPunctuation, is]))]
  rfl

theorem accept_eq_some {q : Token → Bool} {found : Bool} {s' : State}
    (run : accept q s = (some found, s')) :
    q s.cursor.current = found ∧ (found = true → s' = { s with cursor := s.cursor.advance }) ∧
      (found = false → s' = s) := by
  cases present : q s.cursor.current with
  | true =>
      rw [accept_present present] at run
      cases run
      exact ⟨rfl, fun _ => rfl, nofun⟩
  | false =>
      rw [accept_absent present] at run
      cases run
      exact ⟨rfl, nofun, fun _ => rfl⟩

theorem required_eq_some {q : Token → Bool} {expected : Expected} {u : Unit} {s' : State}
    (run : (do if ← accept q then pure () else missing expected) s = (some u, s')) :
    q s.cursor.current = true ∧ s' = { s with cursor := s.cursor.advance } := by
  obtain ⟨found, s₁, accepted, rest⟩ := exists_of_bind run
  obtain ⟨known, moves, -⟩ := accept_eq_some accepted
  cases found with
  | true =>
      cases rest
      exact ⟨known, moves rfl⟩
  | false =>
      obtain ⟨u, s₂, -, fails⟩ := exists_of_bind (p := reportMissing expected) rest
      cases fails

variable {kind : TokenKind} (is : s.cursor.current.kind = kind)

include is

theorem acceptKeyword_absent {k : Keyword} (other : kind ≠ .keyword k) :
    acceptKeyword k s = (some false, s) :=
  accept_absent (by simpa [Token.isKeyword, is] using other)

theorem acceptPunctuation_absent {p : Punctuation} (other : kind ≠ .punctuation p) :
    acceptPunctuation p s = (some false, s) :=
  accept_absent (by simpa [Token.isPunctuation, is] using other)

theorem acceptWord_absent {word : String} (other : kind ≠ .identifier) :
    acceptWord word s = (some false, s) :=
  accept_absent (by simp [Token.isWord, is, other])

theorem intoClause_absent (other : kind ≠ .keyword .into) : intoClause s = (some none, s) := by
  rw [intoClause, bind_some (acceptKeyword_absent is other)]
  rfl

theorem fromClause_absent {inner : Level} (other : kind ≠ .keyword .from) :
    fromClause inner s = (some [], s) := by
  rw [fromClause, bind_some (acceptKeyword_absent is other)]
  rfl

theorem expressionClause_absent {inner : Level} {k : Keyword} (other : kind ≠ .keyword k) :
    expressionClause inner k s = (some none, s) := by
  rw [expressionClause, bind_some (acceptKeyword_absent is other)]
  rfl

theorem groupClause_absent {inner : Level} (other : kind ≠ .keyword .group) :
    groupClause inner s = (some [], s) := by
  rw [groupClause, bind_some (acceptKeyword_absent is other)]
  rfl

theorem orderClause_absent {inner : Level} (other : kind ≠ .keyword .order) :
    orderClause inner s = (some [], s) := by
  rw [orderClause, bind_some (acceptKeyword_absent is other)]
  rfl

theorem skipOptions_absent (noFor : kind ≠ .keyword .for) (noOption : kind ≠ .keyword .option) :
    skipOptions s = (some (), s) := by
  have still {α : Type} (p : Parser α) : (onlyIf false p) s = (some none, s) := rfl
  rw [skipOptions, bind_some (acceptKeyword_absent is noFor), bind_some (still _),
    bind_some (acceptKeyword_absent is noOption)]
  rfl

theorem setOperator?_absent (noUnion : kind ≠ .keyword .union) (noExcept : kind ≠ .keyword .except)
    (noIntersect : kind ≠ .keyword .intersect) : setOperator? s = (some none, s) := by
  rw [setOperator?, bind_some (acceptKeyword_absent is noUnion), if_neg Bool.false_ne_true,
    bind_some (acceptKeyword_absent is noExcept), if_neg Bool.false_ne_true,
    bind_some (acceptKeyword_absent is noIntersect)]
  rfl

omit is in
theorem setOperator?_end (ends : s.cursor.current.kind = .endOfInput) :
    setOperator? s = (some none, s) := setOperator?_absent ends nofun nofun nofun

theorem commonTables_absent {inner : Level} (other : kind ≠ .keyword .with) :
    commonTables inner s = (some [], s) := by
  rw [commonTables, bind_some (acceptKeyword_absent is other)]
  rfl

theorem identifier_absent (other : kind ≠ .identifier) : identifier s = (none, s) := by
  rw [identifier_apply, if_neg (by rwa [is])]

theorem tableLabel_absent (noAs : kind ≠ .keyword .as) (noName : kind ≠ .identifier) :
    tableLabel s = (some none, s) := by
  have noSample : check (·.isWord "TABLESAMPLE") s = (some false, s) := by
    simp [check, look, Token.isWord, is, noName]
  rw [tableLabel, bind_some (acceptKeyword_absent is noAs), if_neg Bool.false_ne_true,
    bind_some noSample, if_neg Bool.false_ne_true, attempt, identifier_absent is noName]

theorem skipHints_absent (noWith : kind ≠ .keyword .with) (noName : kind ≠ .identifier) :
    skipHints s = (some (), s) := by
  have looks : peek 1 s = (some (s.cursor.peek 1), s) := rfl
  have still {α : Type} (p : Parser α) : (onlyIf false p) s = (some none, s) := rfl
  rw [skipHints, bind_some looks, bind_some (accept_absent (by simp [Token.isKeyword, is, noWith])),
    bind_some (still _), bind_some (acceptWord_absent is noName), bind_some (still _)]
  rfl

/-! Rounds of a loop. -/

omit is

section Collections

variable {step : Parser (Option α × Bool)} {a? : Option α} {more : Bool} {s' : State}

theorem collect_nothing (run : step s = (none, s')) : collect step s = (none, s') := by
  rw [collect, run]

/-- The last round asks for no other, or takes nothing. -/
theorem collect_ends (run : step s = (some (a?, more), s'))
    (ends : ¬(more = true ∧ s'.remaining < s.remaining)) :
    collect step s = (some a?.toList, s') := by
  rw [collect, run]
  exact if_neg ends

theorem collect_goesOn (run : step s = (some (a?, more), s'))
    (goesOn : more = true ∧ s'.remaining < s.remaining) :
    collect step s = ((collect step s').1.map (a?.toList ++ ·), (collect step s').2) := by
  rw [collect, run]
  simp only [if_pos goesOn]
  rcases collect step s' with ⟨_ | as, last⟩ <;> rfl

theorem collect_stop {a : Option α} (run : step s = (some (a, false), s')) :
    collect step s = (some a.toList, s') :=
  collect_ends run fun goesOn => Bool.false_ne_true goesOn.1

theorem collect_more {as : List α} {s'' : State} (run : step s = (some (a?, true), s'))
    (shorter : s'.remaining < s.remaining) (rest : collect step s' = (some as, s'')) :
    collect step s = (some (a?.toList ++ as), s'') := by
  rw [collect_goesOn run ⟨rfl, shorter⟩, rest]
  rfl

end Collections

section Iterations

variable {step : β → Parser (β × Bool)} {b b' : β} {more : Bool} {s' : State}

theorem iterate_nothing (run : step b s = (none, s')) : iterate step b s = (none, s') := by
  rw [iterate, run]

theorem iterate_ends (run : step b s = (some (b', more), s'))
    (ends : ¬(more = true ∧ s'.remaining < s.remaining)) : iterate step b s = (some b', s') := by
  rw [iterate, run]
  exact if_neg ends

theorem iterate_goesOn (run : step b s = (some (b', more), s'))
    (goesOn : more = true ∧ s'.remaining < s.remaining) :
    iterate step b s = iterate step b' s' := by
  rw [iterate, run]
  exact if_pos goesOn

theorem iterate_stop (run : step b s = (some (b', false), s')) :
    iterate step b s = (some b', s') :=
  iterate_ends run fun goesOn => Bool.false_ne_true goesOn.1

theorem iterate_more (run : step b s = (some (b', true), s'))
    (shorter : s'.remaining < s.remaining) : iterate step b s = iterate step b' s' :=
  iterate_goesOn run ⟨rfl, shorter⟩

end Iterations

section Chains

variable {operand : Parser α} {operator : Parser (Option ω)} {join : α → ω → α → α} {a : α}
  {s' s'' : State}

theorem chainRight_nothing (first : operand s = (none, s')) :
    chainRight operand operator join s = (none, s') := by
  rw [chainRight, first]

theorem chainRight_stop {op? : Option (Option ω)} (first : operand s = (some a, s'))
    (between : operator s' = (op?, s'')) (absent : ∀ op, op? = some (some op) → False) :
    chainRight operand operator join s = (some a, s'') := by
  rw [chainRight, first]
  rcases op? with _ | _ | op
  · simp only [between]
  · simp only [between]
  · exact absurd rfl (absent op)

theorem chainRight_more {op : ω} (first : operand s = (some a, s'))
    (between : operator s' = (some (some op), s'')) (shorter : s''.remaining < s.remaining) :
    chainRight operand operator join s =
      (some ((chainRight operand operator join s'').1.elim a (join a op)),
        (chainRight operand operator join s'').2) := by
  rw [chainRight, first]
  simp only [between, if_pos shorter]
  rcases chainRight operand operator join s'' with ⟨_ | b, last⟩ <;> rfl

/-- An operator that takes nothing has no right side. -/
theorem chainRight_still {op : ω} (first : operand s = (some a, s'))
    (between : operator s' = (some (some op), s'')) (still : ¬s''.remaining < s.remaining) :
    chainRight operand operator join s = (some a, s'') := by
  rw [chainRight, first]
  simp only [between, if_neg still]

end Chains

theorem queryChain_more {inner : Level} {left : Query} {operator : SetOperator} {s' s'' : State}
    (first : queryTerm inner s = (some left, s'))
    (between : setOperator? s' = (some (some operator), s''))
    (shorter : s''.remaining < s.remaining) :
    queryChain inner s =
      (some ((queryChain inner s'').1.elim left fun right =>
        { left with setOperation := some ⟨operator, right⟩ }), (queryChain inner s'').2) :=
  chainRight_more first between shorter

/-! One name before the end of the input. -/

variable {t stop : Token} {reported : List Diagnostic} (isName : t.kind = .identifier)
  (isStop : stop.kind = .endOfInput)

include isName isStop

omit isStop in
theorem identifier_last :
    identifier ⟨⟨t, [stop]⟩, reported⟩ = (some (.ofToken t), ⟨⟨stop, []⟩, reported⟩) := by
  rw [identifier_apply, if_pos isName]
  simp [Cursor.advance, Cursor.isAtEnd, Token.isEnd, isName]

theorem qualifiedName_last :
    qualifiedName ⟨⟨t, [stop]⟩, reported⟩ =
      (some ⟨.ofToken t, []⟩, ⟨⟨stop, []⟩, reported⟩) := by
  have first : attempt identifier ⟨⟨t, [stop]⟩, reported⟩ =
      (some (some (.ofToken t)), ⟨⟨stop, []⟩, reported⟩) := by
    rw [attempt, identifier_last isName]
  have noPeriod : acceptPunctuation .period ⟨⟨stop, []⟩, reported⟩ =
      (some false, ⟨⟨stop, []⟩, reported⟩) := acceptPunctuation_absent isStop nofun
  rw [qualifiedName, bind_some first]
  dsimp only
  rw [bind_some (collect_stop (a := none) (by rw [bind_some noPeriod]; rfl))]
  rfl

theorem namedSource_last {inner : Level} :
    namedSource inner ⟨⟨t, [stop]⟩, reported⟩ =
      (some (.named ⟨⟨.ofToken t, []⟩, none⟩), ⟨⟨stop, []⟩, reported⟩) := by
  have noGroup : acceptPunctuation .leftParen ⟨⟨stop, []⟩, reported⟩ =
      (some false, ⟨⟨stop, []⟩, reported⟩) := acceptPunctuation_absent isStop nofun
  have noLabel : tableLabel ⟨⟨stop, []⟩, reported⟩ = (some none, ⟨⟨stop, []⟩, reported⟩) :=
    tableLabel_absent isStop nofun nofun
  have noHints : skipHints ⟨⟨stop, []⟩, reported⟩ = (some (), ⟨⟨stop, []⟩, reported⟩) :=
    skipHints_absent isStop nofun nofun
  rw [namedSource, bind_some (qualifiedName_last isName isStop), bind_some noGroup,
    if_neg Bool.false_ne_true, bind_some noLabel, bind_some noHints]
  rfl

theorem tableSource_last {inner : Level} :
    tableSource inner ⟨⟨t, [stop]⟩, reported⟩ =
      (some (.named ⟨⟨.ofToken t, []⟩, none⟩), ⟨⟨stop, []⟩, reported⟩) := by
  have one : table inner ⟨⟨t, [stop]⟩, reported⟩ =
      (some (.named ⟨⟨.ofToken t, []⟩, none⟩), ⟨⟨stop, []⟩, reported⟩) := by
    have looks : current ⟨⟨t, [stop]⟩, reported⟩ = (some t, ⟨⟨t, [stop]⟩, reported⟩) := rfl
    rw [table, bind_some looks]
    simp only [isName]
    exact namedSource_last isName isStop
  have noJoin (left : TableSource) : join inner left ⟨⟨stop, []⟩, reported⟩ =
      (some (left, false), ⟨⟨stop, []⟩, reported⟩) := by
    have none_ : joinOperator? ⟨⟨stop, []⟩, reported⟩ = (some none, ⟨⟨stop, []⟩, reported⟩) := by
      have looks : current ⟨⟨stop, []⟩, reported⟩ = (some stop, ⟨⟨stop, []⟩, reported⟩) := rfl
      have peeks : peek 1 ⟨⟨stop, []⟩, reported⟩ = (some stop, ⟨⟨stop, []⟩, reported⟩) := rfl
      rw [joinOperator?, bind_some looks, bind_some peeks]
      simp only [joinKind?, isStop]
      rfl
    rw [join, bind_some none_]
    rfl
  rw [tableSource, bind_some one]
  exact iterate_stop (noJoin _)

/-- A `FROM` clause with one name and nothing behind it. -/
theorem sourceList_last {inner : Level} :
    sourceList inner ⟨⟨t, [stop]⟩, reported⟩ =
      (some [.named ⟨⟨.ofToken t, []⟩, none⟩], ⟨⟨stop, []⟩, reported⟩) := by
  have one : attempt (tableSource inner) ⟨⟨t, [stop]⟩, reported⟩ =
      (some (some (.named ⟨⟨.ofToken t, []⟩, none⟩)), ⟨⟨stop, []⟩, reported⟩) := by
    rw [attempt, tableSource_last isName isStop]
  have finished : finishItem endsItem true ⟨⟨stop, []⟩, reported⟩ =
      (some false, ⟨⟨stop, []⟩, reported⟩) := by
    have looks : current ⟨⟨stop, []⟩, reported⟩ = (some stop, ⟨⟨stop, []⟩, reported⟩) := rfl
    have ends : endsItem stop = true := by simp [endsItem, endsClause, isStop]
    have still : skipUntil endsItem ⟨⟨stop, []⟩, reported⟩ =
        (some (), ⟨⟨stop, []⟩, reported⟩) := rfl
    have quiet : onlyIf (true && !endsItem stop) (reportSurplus .commaOrEndOfList)
        ⟨⟨stop, []⟩, reported⟩ = (some none, ⟨⟨stop, []⟩, reported⟩) := by
      rw [ends]
      rfl
    rw [finishItem, bind_some looks, bind_some quiet, bind_some still]
    exact acceptPunctuation_absent isStop nofun
  rw [sourceList, commaList, collect_stop (a := some (.named ⟨⟨.ofToken t, []⟩, none⟩))]
  · rfl
  · rw [bind_some one]
    dsimp only [Option.isSome]
    rw [bind_some finished]
    rfl

end Parser

end QueryNames.Grammar
