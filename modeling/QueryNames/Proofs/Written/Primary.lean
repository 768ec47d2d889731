import QueryNames.Proofs.Written.Expression

/-!
Reading written primary expressions. Main statements: each production of a primary expression reads
what is written for it, if the productions inside do and nothing follows that would go on with it.
-/

namespace QueryNames.Grammar

/-! What may follow. -/

/-- The rank of the strength at which a token of this kind goes on with an operand before it: a
name or call, a product, a sum, a condition, a conjunction or a disjunction. Others end it. -/
def bindingRank : TokenKind → Nat
  | .punctuation .period | .punctuation .leftParen | .identifier | .keyword .over => 0
  | .star | .operator .slash | .operator .percent => 2
  | .operator .plus | .operator .minus | .operator .ampersand | .operator .pipe
  | .operator .caret => 3
  | .operator .eq | .operator .notEq | .operator .lt | .operator .gt | .operator .ltEq
  | .operator .gtEq | .operator .notLt | .operator .notGt => 4
  | .keyword .is | .keyword .not | .keyword .in | .keyword .between | .keyword .like
  | .keyword .escape => 4
  | .keyword .and => 6
  | .keyword .or => 7
  | _ => 8

/-- The kinds of the first tokens of expressions. -/
def opensExpression : TokenKind → Bool
  | .numberLiteral | .stringLiteral | .variable | .identifier | .keyword .null | .keyword .case
  | .keyword .not | .punctuation .leftParen | .operator .minus | .operator .plus
  | .operator .tilde => true
  | _ => false

namespace Strength

/-- An expression of this strength ends before the token. -/
def Stops (s : Strength) (t : Token) : Prop := s.rank < bindingRank t.kind

theorem Stops.mono {s s' : Strength} {t : Token} (stops : s.Stops t) (tighter : s'.rank ≤ s.rank) :
    s'.Stops t :=
  Nat.lt_of_le_of_lt tighter stops

theorem Stops.kind_ne {s : Strength} {t : Token} {k : TokenKind} (stops : s.Stops t)
    (binds : bindingRank k ≤ s.rank) : t.kind ≠ k := by
  rintro rfl
  exact Nat.not_lt.2 binds stops

theorem stops_of_kind {s : Strength} {t : Token} {k : TokenKind} (is : t.kind = k)
    (ends : s.rank < bindingRank k) : s.Stops t := by
  rwa [Stops, is]

theorem stops_of_endsItem {s : Strength} {t : Token} (ends : endsItem t = true) : s.Stops t := by
  have loose : bindingRank t.kind = 8 := by
    obtain ⟨kind, text, location⟩ := t
    simp only [endsItem, endsClause, Token.isPunctuation, Bool.or_eq_true, beq_iff_eq] at ends
    dsimp only
    rcases ends with rfl | ends
    · rfl
    · split at ends
      · rfl
      · rfl
      · rfl
      · rename_i k
        cases k <;> first | rfl | cases ends
      · cases ends
  rw [Stops, loose]
  cases s <;> decide

/-- An expression begins with a token of another kind. -/
theorem Begins.kind_ne {s : Strength} {t : Token} {k : TokenKind} (begins : s.Begins t)
    (other : opensExpression k = false) : t.kind ≠ k := by
  rintro rfl
  apply Bool.false_ne_true
  rw [← other]
  rcases begins with primary | ⟨-, signs⟩ | ⟨-, is⟩
  · unfold opensPrimary at primary
    split at primary <;> simp_all [opensExpression]
  · unfold sign? at signs
    split at signs <;> simp_all [opensExpression]
  · rw [is]
    rfl

end Strength

namespace Parser

variable {inner : Level} {follow : Token → Prop}

theorem endsList_of_rightParen {t : Token} (closes : t.kind = .punctuation .rightParen) :
    EndsList t := by
  simp [EndsList, endsItem, endsClause, Token.isPunctuation, closes]

/-! Keywords that may be left out, alone or with an expression. -/

theorem acceptKeyword_flag {k : Keyword} {ds us : List Token} {flag : Bool}
    (written : WrittenFlag k ds flag) (next : Next us follow (·.kind ≠ .keyword k)) {s : State}
    (follows : follow s.cursor.current) :
    acceptKeyword k (s.prepend (ds ++ us)) = (some flag, s.prepend us) := by
  cases written with
  | absent => exact acceptKeyword_absent rfl (next.current follows)
  | present is => exact acceptKeyword_prepend is

/-- The tokens are nothing, or a keyword with an expression behind it. -/
inductive YieldsClause (k : Keyword) (p : Parser α) (follow : Token → Prop) :
    List Token → Option α → Prop
  | absent : YieldsClause k p follow [] none
  | present {t ts a} (is : t.kind = .keyword k) (yields : Yields p ts a follow) :
      YieldsClause k p follow (t :: ts) (some a)

namespace YieldsClause

variable {k : Keyword} {p : Parser α} {ts : List Token} {a? : Option α}

theorem required (clause : YieldsClause k p follow ts a?) :
    Yields (acceptKeyword k >>= fun found => requiredIf found p) ts a?
      fun t => t.kind ≠ .keyword k ∧ follow t := by
  intro s follows
  cases clause with
  | absent => exact bind_some (acceptKeyword_absent rfl follows.1)
  | present is yields =>
      rw [bind_some (acceptKeyword_prepend is)]
      exact bind_some (yields s follows.2)

theorem optional (clause : YieldsClause k p follow ts a?) :
    Yields (acceptKeyword k >>= fun found => onlyIf found p) ts a?
      fun t => t.kind ≠ .keyword k ∧ follow t := by
  intro s follows
  cases clause with
  | absent => exact bind_some (acceptKeyword_absent rfl follows.1)
  | present is yields =>
      rw [bind_some (acceptKeyword_prepend is)]
      exact yields.attempt s follows.2

end YieldsClause

/-! Leaves, columns and calls. -/

theorem primary_leaf {t : Token} {e : Expression} (is : leaf? t = some e) :
    Yields (primary inner) [t] e follow := by
  intro s follows
  rw [primary, bind_current, bind_peek]
  unfold leaf? at is
  split at is <;> cases is
  all_goals
    rename_i kind
    simp only [State.current_prepend_cons, kind]
    exact leaf_yields _ (by rw [kind]; nofun) follow s follows

variable {ts us : List Token} {name : QualifiedName} {s : State}

theorem primary_name (named : WrittenName ts name) :
    primary inner (s.prepend (ts ++ us)) = columnOrCall inner (s.prepend (ts ++ us)) := by
  obtain ⟨t, ts, rfl, delimited, -⟩ := named.begins
  rw [primary, bind_current, bind_peek]
  simp only [List.cons_append, State.current_prepend_cons, Token.kind_of_isDelimited delimited]
  simp only [Parser.named, Token.isPlainName_of_isDelimited delimited, Bool.false_and]
  rfl

theorem primary_column (named : WrittenName ts name) :
    Yields (primary inner) ts (.column ⟨some name, .regular, name.location⟩)
      Strength.primary.Stops := by
  intro s stops
  have noGroup : s.cursor.current.isPunctuation .leftParen = false := by
    simpa [Token.isPunctuation] using stops.kind_ne (by decide)
  have reads := qualifiedName_yields named s (stops.kind_ne (by decide))
  obtain ⟨t, us, rfl, -, location⟩ := named.begins
  have same := @primary_name inner _ [] _ s named
  rw [List.append_nil] at same
  rw [same, columnOrCall, bind_place, bind_some reads, bind_check, noGroup, location]
  rfl

theorem arguments_nil {closing : Token} (closes : closing.kind = .punctuation .rightParen) :
    Yields (arguments inner) [closing] [] follow := by
  intro s _
  rw [arguments, bind_some (acceptPunctuation_prepend closes)]
  rfl

theorem arguments_list {closing : Token} {list : List Expression}
    (yields : Yields (commaList endsItem (argument inner)) us list EndsList)
    (opens : (Part.list true).Opens us) (closes : closing.kind = .punctuation .rightParen) :
    Yields (arguments inner) (us ++ [closing]) list follow := by
  intro s follows
  have filled : Next (us ++ [closing]) follow (·.kind ≠ .punctuation .rightParen) := by
    apply opens.next _ nofun
    rintro t (⟨-, is⟩ | begins)
    · rw [is]
      nofun
    · exact begins.kind_ne rfl
  have reads := yields.before (show Next [closing] follow EndsList from
    endsList_of_rightParen closes) follows
  rw [arguments, bind_some (acceptPunctuation_absent rfl (filled.current follows)),
    if_neg Bool.false_ne_true, bind_some reads, bind_some (closeParen_prepend closes)]
  rfl

/-- What may stand behind the arguments of a call. -/
def callTail (inner : Level) (name : QualifiedName) (list : List Expression) (distinct : Bool) :
    Parser Expression := do
  let _ ← onlyIf (← acceptWord "WITHIN") do
    let _ ← acceptKeyword .group
    skipParenthesized
  if ← acceptKeyword .over then
    return .function name list distinct (some (← window inner))
  else return .function name list distinct none

theorem call_eq (inner : Level) (name : QualifiedName) : call inner name = (do
    advance
    let distinct ← acceptKeyword .distinct
    let _ ← onlyIf (!distinct) (acceptKeyword .all)
    let list ← arguments inner
    callTail inner name list distinct) := rfl

theorem callTail_absent {list : List Expression} {distinct : Bool}
    (stops : Strength.primary.Stops s.cursor.current) :
    callTail inner name list distinct s = (some (.function name list distinct none), s) := by
  have noWithin : acceptWord "WITHIN" s = (some false, s) :=
    acceptWord_absent rfl (stops.kind_ne (by decide))
  have noOver : acceptKeyword .over s = (some false, s) :=
    acceptKeyword_absent rfl (stops.kind_ne (by decide))
  have still {α : Type} (p : Parser α) : (onlyIf false p) s = (some none, s) := rfl
  rw [callTail, bind_some noWithin, bind_some (still _), bind_some noOver]
  rfl

/-- A call from its opening parenthesis on, up to what stands behind its arguments. -/
theorem call_arguments {opening : Token} {ds : List Token} {distinct : Bool}
    {list : List Expression} (opens : opening.kind = .punctuation .leftParen)
    (flag : WrittenFlag .distinct ds distinct)
    (noFlag : Next us follow fun t => t.kind ≠ .keyword .distinct ∧ t.kind ≠ .keyword .all)
    (yields : Yields (arguments inner) us list follow) (follows : follow s.cursor.current) :
    call inner name (s.prepend (opening :: (ds ++ us))) = callTail inner name list distinct s := by
  have noDistinct : Next us follow (·.kind ≠ .keyword .distinct) :=
    noFlag.weaken fun _ => And.left
  have noAll : ∃ r, onlyIf (!distinct) (acceptKeyword .all) (s.prepend us) =
      (some r, s.prepend us) := by
    cases distinct with
    | false =>
        have absent : acceptKeyword .all (s.prepend us) = (some false, s.prepend us) :=
          acceptKeyword_absent rfl (noFlag.current follows).2
        exact ⟨some false, by rw [Bool.not_false, onlyIf, if_pos rfl, attempt, absent]⟩
    | true => exact ⟨none, rfl⟩
  obtain ⟨r, noAll⟩ := noAll
  rw [call_eq, bind_some (advance_prepend (by simp [opens])),
    bind_some (acceptKeyword_flag flag noDistinct follows), bind_some noAll,
    bind_some (yields s follows)]

theorem call_yields {opening : Token} {ds : List Token} {distinct : Bool} {list : List Expression}
    (opens : opening.kind = .punctuation .leftParen) (flag : WrittenFlag .distinct ds distinct)
    (noFlag : Next us Strength.primary.Stops
      fun t => t.kind ≠ .keyword .distinct ∧ t.kind ≠ .keyword .all)
    (yields : Yields (arguments inner) us list Strength.primary.Stops) :
    Yields (call inner name) (opening :: (ds ++ us)) (.function name list distinct none)
      Strength.primary.Stops := by
  intro s stops
  rw [call_arguments opens flag noFlag yields stops, callTail_absent stops]

/-- A delimited name before an opening parenthesis is called. -/
theorem primary_called {opening : Token} (named : WrittenName ts name)
    (opens : opening.kind = .punctuation .leftParen) :
    primary inner (s.prepend (ts ++ opening :: us)) =
      call inner name (s.prepend (opening :: us)) := by
  have noPeriod : Next (opening :: us) (fun _ => True) (·.kind ≠ .punctuation .period) := by
    show opening.kind ≠ _
    rw [opens]
    nofun
  have reads := (qualifiedName_yields named).before noPeriod (s := s) trivial
  have isGroup : opening.isPunctuation .leftParen = true := by simp [Token.isPunctuation, opens]
  rw [primary_name named, columnOrCall, bind_place, bind_some reads, bind_check,
    State.current_prepend_cons, isGroup]
  rfl

/-- A call of a delimited name, from its opening parenthesis on. -/
theorem primary_call {opening : Token} {e : Expression} (named : WrittenName ts name)
    (opens : opening.kind = .punctuation .leftParen)
    (yields : Yields (call inner name) (opening :: us) e follow) :
    Yields (primary inner) (ts ++ opening :: us) e follow := by
  intro s follows
  rw [primary_called named opens]
  exact yields s follows

/-! Groups: `CASE`, `CAST` and parentheses. -/

section Groups

variable {e : Expression}

/-- What ends the branches of a `CASE`. -/
def EndsBranches (t : Token) : Prop := t.kind ≠ .keyword .when ∧ Strength.disjunction.Stops t

theorem branches_nil : Yields (collect (whenBranch inner)) [] [] EndsBranches := by
  intro s ends
  refine collect_stop (a := none) ?_
  rw [whenBranch, State.prepend_nil, bind_some (acceptKeyword_absent rfl ends.1)]
  rfl

theorem branches_cons {first next : Token} {cs rs bs : List Token} {condition result : Expression}
    {branches : List WhenBranch} (isWhen : first.kind = .keyword .when)
    (asked : Yields inner.expression cs condition Strength.disjunction.Stops)
    (isThen : next.kind = .keyword .then)
    (given : Yields inner.expression rs result Strength.disjunction.Stops)
    (opens : Part.branches.Opens bs)
    (rest : Yields (collect (whenBranch inner)) bs branches EndsBranches) :
    Yields (collect (whenBranch inner)) (first :: (cs ++ next :: (rs ++ bs)))
      (⟨condition, result⟩ :: branches) EndsBranches := by
  intro s ends
  have beforeThen : Next (next :: (rs ++ bs)) EndsBranches Strength.disjunction.Stops :=
    Strength.stops_of_kind isThen (by decide)
  have beforeRest : Next (bs ++ []) EndsBranches Strength.disjunction.Stops := by
    apply opens.next
    · exact fun t is => Strength.stops_of_kind is (by decide)
    · exact fun _ _ => And.right
  rw [List.append_nil] at beforeRest
  have shorter : (s.prepend bs).remaining <
      (s.prepend (first :: (cs ++ next :: (rs ++ bs)))).remaining := by
    simp only [State.remaining_prepend, List.length_cons, List.length_append]
    omega
  refine collect_more (?_ : _ = (some (some ⟨condition, result⟩, true), _)) shorter (rest s ends)
  rw [whenBranch, bind_some (acceptKeyword_prepend isWhen), if_pos rfl,
    bind_some (asked.before beforeThen ends), bind_some (requireKeyword_prepend isThen),
    bind_some (given.before beforeRest ends)]
  rfl

/-- The expression behind `CASE`, if one stands there. -/
def caseOperand (inner : Level) : Parser (Option Expression) := do
  requiredIf (!(← check (·.isKeyword .when))) inner.expression

theorem caseOperand_absent : Yields (caseOperand inner) [] none (·.kind = .keyword .when) := by
  intro s isWhen
  have found : s.cursor.current.isKeyword .when = true := by simp [Token.isKeyword, isWhen]
  rw [State.prepend_nil, caseOperand, bind_check, found]
  rfl

theorem caseOperand_present (opens : (Part.at .disjunction).Opens ts)
    (yields : Yields inner.expression ts e Strength.disjunction.Stops) :
    Yields (caseOperand inner) ts (some e) (·.kind = .keyword .when) := by
  intro s isWhen
  have noWhen : Next (ts ++ []) (·.kind = .keyword .when) (·.isKeyword .when = false) := by
    apply opens.next _ nofun
    intro t begins
    simpa [Token.isKeyword] using begins.kind_ne rfl
  rw [List.append_nil] at noWhen
  rw [caseOperand, bind_check, noWhen.current isWhen]
  exact bind_some (yields s (Strength.stops_of_kind isWhen (by decide)))

theorem primary_case {first last : Token} {os bs es : List Token} {operand : Option Expression}
    {branch : WhenBranch} {branches : List WhenBranch} {otherwise : Option Expression}
    (begins : first.kind = .keyword .case)
    (compared : Yields (caseOperand inner) os operand (·.kind = .keyword .when))
    (opens : Part.branches.Opens bs) (filled : bs ≠ [])
    (chosen : Yields (collect (whenBranch inner)) bs (branch :: branches) EndsBranches)
    (defaulted : YieldsClause .else inner.expression Strength.disjunction.Stops es otherwise)
    (ends : last.kind = .keyword .end) :
    Yields (primary inner) (first :: (os ++ (bs ++ (es ++ [last]))))
      (.case operand (branch :: branches) otherwise) follow := by
  intro s follows
  have beforeBranches : Next (bs ++ (es ++ [last])) follow (·.kind = .keyword .when) := by
    cases bs with
    | nil => contradiction
    | cons t bs => exact opens
  have isLast : EndsBranches last :=
    ⟨by rw [ends]; nofun, Strength.stops_of_kind ends (by decide)⟩
  have beforeElse : Next (es ++ [last]) follow EndsBranches := by
    cases defaulted with
    | absent => exact isLast
    | present is => exact ⟨by rw [is]; nofun, Strength.stops_of_kind is (by decide)⟩
  have beforeEnd : Next [last] follow
      fun t => t.kind ≠ .keyword .else ∧ Strength.disjunction.Stops t :=
    ⟨by rw [ends]; nofun, isLast.2⟩
  have operandReads := compared.before beforeBranches follows
  rw [caseOperand] at operandReads
  rw [primary, bind_current, bind_peek]
  simp only [State.current_prepend_cons, begins]
  rw [caseExpression, bind_some (advance_prepend (by simp [begins])), ← bind_assoc,
    bind_some operandReads, bind_some (chosen.before beforeElse follows)]
  simp only [List.isEmpty_cons, Bool.false_eq_true, if_false]
  rw [← bind_assoc, bind_some (defaulted.required.before beforeEnd follows),
    bind_some (requireKeyword_prepend ends)]
  rfl

theorem dataType_yields (named : WrittenName ts name) :
    Yields dataType ts (".".intercalate name.values) Strength.primary.Stops := by
  intro s stops
  rw [dataType, bind_some (qualifiedName_yields named s (stops.kind_ne (by decide))),
    bind_some (acceptPunctuation_absent rfl (stops.kind_ne (by decide)))]
  rfl

theorem primary_cast {word opening as closing : Token} (is : word.isWord "CAST" = true)
    (opens : opening.kind = .punctuation .leftParen)
    (converted : Yields inner.expression ts e Strength.disjunction.Stops)
    (isAs : as.kind = .keyword .as) (named : WrittenName us name)
    (closes : closing.kind = .punctuation .rightParen) :
    Yields (primary inner) (word :: opening :: (ts ++ as :: (us ++ [closing])))
      (.cast e (".".intercalate name.values) none) follow := by
  intro s follows
  have kind := Token.kind_of_isWord is
  have plain : word.isPlainName = true := Token.isPlainName_of_isWord is (by decide)
  have isGroup : opening.isPunctuation .leftParen = true := by simp [Token.isPunctuation, opens]
  have beforeAs : Next (as :: (us ++ [closing])) follow Strength.disjunction.Stops :=
    Strength.stops_of_kind isAs (by decide)
  have beforeEnd : Next [closing] follow Strength.primary.Stops :=
    Strength.stops_of_kind closes (by decide)
  rw [primary, bind_current, bind_peek]
  simp only [State.current_prepend_cons, State.peek_prepend_cons, kind, Parser.named, plain,
    isGroup, is, Bool.true_and, Bool.true_or, if_true]
  rw [castExpression, bind_some (advance_prepend (by simp [kind])),
    bind_some (advance_prepend (by simp [opens])),
    bind_some (converted.before beforeAs follows), bind_some (requireKeyword_prepend isAs),
    bind_some ((dataType_yields named).before beforeEnd follows),
    bind_some (closeParen_prepend closes)]
  rfl

/-- Behind the parenthesis no query begins. -/
theorem opensQuery_prepend {opening : Token} {part : Part} (opens : part.Opens ts)
    (filled : part.isOptional = false)
    (noQuery : ∀ t, part.Begins t → t.kind ≠ .keyword .select ∧ t.kind ≠ .keyword .with) :
    (s.prepend (opening :: (ts ++ us))).cursor.opensQuery = false := by
  cases ts with
  | nil => exact absurd (filled.symm.trans opens) Bool.false_ne_true
  | cons t ts =>
      have plain : isSelectOrWith t = false := by
        simpa [isSelectOrWith, Token.isKeyword] using noQuery t opens
      simp only [Cursor.opensQuery, State.peek_prepend_cons, List.cons_append,
        State.current_prepend_cons, plain, Bool.and_false]

theorem primary_nested {opening closing : Token}
    (isOpening : opening.kind = .punctuation .leftParen)
    (opens : (Part.at .disjunction).Opens ts)
    (inside : Yields inner.expression ts e Strength.disjunction.Stops)
    (closes : closing.kind = .punctuation .rightParen) :
    Yields (primary inner) (opening :: (ts ++ [closing])) (.nested e) follow := by
  intro s follows
  have noQuery : (s.prepend (opening :: (ts ++ [closing]))).cursor.opensQuery = false :=
    opensQuery_prepend opens rfl fun t begins => ⟨begins.kind_ne rfl, begins.kind_ne rfl⟩
  have beforeEnd : Next [closing] follow Strength.disjunction.Stops :=
    Strength.stops_of_kind closes (by decide)
  rw [primary, bind_current, bind_peek]
  simp only [State.current_prepend_cons, isOpening]
  rw [parenthesized, bind_look, noQuery, if_neg Bool.false_ne_true,
    bind_some (advance_prepend (by simp [isOpening])),
    bind_some (inside.attempt.before beforeEnd follows), bind_some (closeParen_prepend closes)]
  rfl

end Groups

end Parser

end QueryNames.Grammar
