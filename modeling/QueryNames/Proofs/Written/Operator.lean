import QueryNames.Proofs.Grammar.Triple
import QueryNames.Proofs.Written.Primary

/-!
Reading written operators. Main statements: signs, `NOT` and conditions read what is written for
them, and a chain of operands goes on from the tree of those that are read already.
-/

namespace QueryNames.Grammar

namespace Strength

/-- No quantifier begins an expression. -/
theorem Begins.noQuantifier {s : Strength} {t : Token} (begins : s.Begins t) :
    (t.isKeyword .all || t.isWord "ANY" || t.isWord "SOME") = false := by
  have noAll : t.isKeyword .all = false := by
    simpa [Token.isKeyword] using begins.kind_ne (k := .keyword .all) rfl
  have noWord {word : String} {c : Char} {r : List Char} (spelled : word.toList = c :: r)
      (letter : c.toLower.isAlpha = true)
      (other : word.toList.map Char.toLower ≠ "CAST".toList.map Char.toLower) :
      t.isWord word = false := by
    by_cases isName : t.kind = .identifier
    · have name : t.isDelimited = true ∨ t.isWord "CAST" = true := by
        rcases begins with primary | ⟨-, signs⟩ | ⟨-, is⟩
        · simpa only [opensPrimary, isName] using primary
        · simp [isName, sign?] at signs
        · simp [isName] at is
      rcases name with delimited | cast
      · exact Token.isWord_of_isDelimited delimited spelled letter
      · simp only [Token.isWord, Bool.and_eq_true, Text.sameAsciiCase, beq_iff_eq] at cast
        simp only [Token.isWord, Text.sameAsciiCase, cast.2, Bool.and_eq_false_iff,
          beq_eq_false_iff_ne]
        exact .inr other.symm
    · simp [Token.isWord, isName]
  rw [noAll, noWord rfl rfl (by decide), noWord rfl rfl (by decide)]
  rfl

theorem Begins.kind_ne_not {s : Strength} {t : Token} (begins : s.Begins t)
    (tight : s.rank < negation.rank) : t.kind ≠ .keyword .not := by
  intro is
  rcases begins with primary | ⟨-, signs⟩ | ⟨loose, -⟩
  · simp [opensPrimary, is] at primary
  · simp [is, sign?] at signs
  · exact absurd tight (Nat.not_lt.2 loose)

theorem Begins.noSign {t : Token} (begins : primary.Begins t) : sign? t.kind = none := by
  rcases begins with opens | ⟨loose, -⟩ | ⟨loose, -⟩
  · unfold sign?
    split
    all_goals
      rename_i is
      simp [opensPrimary, is] at opens
    rfl
  · exact absurd loose (by decide)
  · exact absurd loose (by decide)

end Strength

namespace Parser

variable {inner : Level} {follow : Token → Prop} {s : State} {ts us : List Token} {e : Expression}

/-! Signs and `NOT`. -/

theorem signed_sign {t : Token} {op : UnaryOperator} (signs : sign? t.kind = some op)
    (operand : Yields inner.signed ts e follow) :
    Yields (signed inner) (t :: ts) (.unary op e) follow := by
  intro s follows
  have inside : t.kind ≠ .endOfInput := by
    intro is
    rw [is] at signs
    cases signs
  rw [signed, bind_some (operator?_prepend inside signs)]
  exact bind_some (operand s follows)

theorem signed_plain (opens : (Part.at .primary).Opens ts)
    (yields : Yields (primary inner) ts e follow) :
    Yields (signed inner) ts e follow := by
  intro s follows
  have noSign : Next (ts ++ []) follow (sign? ·.kind = none) :=
    opens.next (fun _ begins => begins.noSign) nofun
  rw [List.append_nil] at noSign
  rw [signed, bind_some (operator?_absent (noSign.current follows))]
  exact yields s follows

theorem negation_not {t : Token} (is : t.kind = .keyword .not)
    (operand : Yields inner.negation ts e follow) :
    Yields (negation inner) (t :: ts) (.unary .not e) follow := by
  intro s follows
  rw [negation, bind_some (acceptKeyword_prepend is), if_pos rfl, bind_some (operand s follows)]
  rfl

theorem negation_plain (opens : (Part.at .predicate).Opens ts)
    (yields : Yields (predicate inner) ts e follow) : Yields (negation inner) ts e follow := by
  intro s follows
  have noNot : Next (ts ++ []) follow (·.kind ≠ .keyword .not) :=
    opens.next (fun _ begins => begins.kind_ne_not (by decide)) nofun
  rw [List.append_nil] at noNot
  rw [negation, bind_some (acceptKeyword_absent rfl (noNot.current follows)),
    if_neg Bool.false_ne_true]
  exact yields s follows

/-! Conditions. -/

variable {ls : List Token} {left : Expression}

/-- Neither a comparison nor `IS` comes next. -/
def NoTest (t : Token) : Prop :=
  Strength.additive.Stops t ∧ comparison? t.kind = none ∧ t.kind ≠ .keyword .is

theorem noExists (opens : (Part.at .additive).Opens ls) :
    (s.prepend (ls ++ us)).cursor.current.isKeyword .exists = false := by
  cases ls with
  | nil => exact absurd opens Bool.false_ne_true
  | cons t ls => simpa [Token.isKeyword] using opens.kind_ne (k := .keyword .exists) rfl

theorem predicate_condition (opens : (Part.at .additive).Opens ls)
    (front : Yields (additive inner) ls left Strength.additive.Stops)
    (next : Next us follow NoTest) (follows : follow s.cursor.current) :
    predicate inner (s.prepend (ls ++ us)) = condition inner left (s.prepend us) := by
  have stops : Next us follow Strength.additive.Stops := next.weaken fun _ => And.left
  have test := next.current follows
  rw [predicate, bind_check, noExists opens, if_neg Bool.false_ne_true,
    bind_some (front.before stops follows), bind_some (operator?_absent test.2.1)]
  dsimp only
  rw [bind_some (acceptKeyword_absent rfl test.2.2), if_neg Bool.false_ne_true]

theorem noComparison_of_stops {t : Token} (stops : Strength.predicate.Stops t) :
    comparison? t.kind = none := by
  unfold comparison?
  split <;> first | rfl | exact absurd ‹_› (stops.kind_ne (by decide))

theorem condition_absent (stops : Strength.predicate.Stops s.cursor.current) :
    condition inner left s = (some left, s) := by
  have noNot {q : Token → Bool} :
      accept (fun t => t.isKeyword .not && q t) s = (some false, s) := by
    apply accept_absent
    have other := stops.kind_ne (k := .keyword .not) (by decide)
    simp [Token.isKeyword, other]
  rw [condition, bind_peek, bind_some noNot,
    bind_some (acceptKeyword_absent rfl (stops.kind_ne (by decide))), if_neg Bool.false_ne_true,
    bind_some (acceptKeyword_absent rfl (stops.kind_ne (by decide))), if_neg Bool.false_ne_true,
    bind_some (acceptKeyword_absent rfl (stops.kind_ne (by decide)))]
  rfl

theorem predicate_plain (opens : (Part.at .additive).Opens ls)
    (front : Yields (additive inner) ls left Strength.additive.Stops) :
    Yields (predicate inner) ls left Strength.predicate.Stops := by
  intro s stops
  have noTest : Next [] Strength.predicate.Stops NoTest := fun t stops =>
    ⟨stops.mono (by decide), noComparison_of_stops stops, stops.kind_ne (by decide)⟩
  have goesOn := predicate_condition opens front noTest stops
  rw [List.append_nil] at goesOn
  rw [goesOn, State.prepend_nil, condition_absent stops]

theorem comparand_yields (opens : (Part.at .additive).Opens ts)
    (yields : Yields (additive inner) ts e follow) : Yields (comparand inner) ts e follow := by
  intro s follows
  have noQuantifier : Next (ts ++ []) follow
      fun t => (t.isKeyword .all || t.isWord "ANY" || t.isWord "SOME") = false :=
    opens.next (fun _ begins => begins.noQuantifier) nofun
  rw [List.append_nil] at noQuantifier
  rw [comparand, bind_check, noQuantifier.current follows, bind_peek]
  exact yields s follows

theorem predicate_comparison {t : Token} {op : BinaryOperator} {rs : List Token}
    {right : Expression}
    (opens : (Part.at .additive).Opens ls)
    (front : Yields (additive inner) ls left Strength.additive.Stops)
    (compares : comparison? t.kind = some op) (opens' : (Part.at .additive).Opens rs)
    (back : Yields (additive inner) rs right Strength.additive.Stops) :
    Yields (predicate inner) (ls ++ t :: rs) (.binary op left right) Strength.predicate.Stops := by
  intro s stops
  have binds : bindingRank t.kind = 4 ∧ t.kind ≠ .endOfInput := by
    unfold comparison? at compares
    split at compares <;> simp_all [bindingRank]
  have beforeOperator : Next (t :: rs) Strength.predicate.Stops Strength.additive.Stops := by
    show _ < bindingRank t.kind
    rw [binds.1]
    decide
  rw [predicate, bind_check, noExists opens, if_neg Bool.false_ne_true,
    bind_some (front.before beforeOperator stops), bind_some (operator?_prepend binds.2 compares)]
  dsimp only
  rw [bind_some ((comparand_yields opens' back).attempt s (stops.mono (by decide)))]
  rfl

theorem predicate_isNull {is null : Token} {ns : List Token} {negated : Bool}
    (opens : (Part.at .additive).Opens ls)
    (front : Yields (additive inner) ls left Strength.additive.Stops)
    (isIs : is.kind = .keyword .is) (flag : WrittenFlag .not ns negated)
    (isNull : null.kind = .keyword .null) :
    Yields (predicate inner) (ls ++ is :: (ns ++ [null])) (.isNull left negated) follow := by
  intro s follows
  have beforeIs : Next (is :: (ns ++ [null])) follow Strength.additive.Stops :=
    Strength.stops_of_kind isIs (by decide)
  have noComparison : comparison? is.kind = none := by
    rw [isIs]
    rfl
  have noNot : Next [null] follow (·.kind ≠ .keyword .not) := by
    show null.kind ≠ _
    rw [isNull]
    nofun
  have found : succeeds (requireKeyword .null) (s.prepend [null]) = (some true, s) := by
    have required : attempt (requireKeyword .null) (s.prepend [null]) = (some (some ()), s) := by
      rw [attempt, requireKeyword_prepend isNull]
      rfl
    rw [succeeds, bind_some required]
    rfl
  rw [predicate, bind_check, noExists opens, if_neg Bool.false_ne_true,
    bind_some (front.before beforeIs follows), bind_some (operator?_absent noComparison)]
  dsimp only
  rw [bind_some (acceptKeyword_prepend isIs), if_pos rfl, nullTest,
    bind_some (acceptKeyword_flag flag noNot follows), bind_some found]
  rfl

/-- What follows the `NOT` of a condition, or its place. -/
def negatable (inner : Level) (left : Expression) (negated : Bool) : Parser Expression := do
  if ← acceptKeyword .in then membership inner left negated
  else if ← acceptKeyword .between then range inner left negated
  else if ← acceptKeyword .like then pattern inner left negated
  else return left

variable {word : Token} {k : Keyword} {ns : List Token} {negated : Bool}

/-- A condition that may be negated comes next. -/
theorem condition_negatable (flag : WrittenFlag .not ns negated) (is : word.kind = .keyword k)
    (known : k = .in ∨ k = .between ∨ k = .like) :
    condition inner left (s.prepend (ns ++ word :: us)) =
      negatable inner left negated (s.prepend (word :: us)) := by
  rw [condition, bind_peek, negatable]
  refine bind_some ?_
  cases flag with
  | absent =>
      refine accept_absent ?_
      rcases known with rfl | rfl | rfl <;> simp [Token.isKeyword, is]
  | @present t isNot =>
      refine accept_prepend (by simp [isNot]) ?_
      rcases known with rfl | rfl | rfl <;> simp [Token.isKeyword, is, isNot]

theorem noTest_negatable (flag : WrittenFlag .not ns negated) (is : word.kind = .keyword k)
    (known : k = .in ∨ k = .between ∨ k = .like) : Next (ns ++ word :: us) follow NoTest := by
  cases flag with
  | absent =>
      show NoTest word
      rcases known with rfl | rfl | rfl <;> simp [NoTest, Strength.Stops, is] <;> decide
  | @present t isNot =>
      show NoTest t
      simp [NoTest, Strength.Stops, isNot]
      decide

theorem predicate_negatable (opens : (Part.at .additive).Opens ls)
    (front : Yields (additive inner) ls left Strength.additive.Stops)
    (flag : WrittenFlag .not ns negated) (is : word.kind = .keyword k)
    (known : k = .in ∨ k = .between ∨ k = .like)
    (test : Yields (negatable inner left negated) (word :: us) e follow) :
    Yields (predicate inner) (ls ++ (ns ++ word :: us)) e follow := by
  intro s follows
  rw [predicate_condition opens front (noTest_negatable flag is known) follows,
    condition_negatable flag is known]
  exact test s follows

theorem negatable_in {opening closing : Token} {list : List Expression}
    (is : word.kind = .keyword .in) (isOpening : opening.kind = .punctuation .leftParen)
    (opens : (Part.list false).Opens us)
    (members : Yields (expressionList inner) us list EndsList)
    (closes : closing.kind = .punctuation .rightParen) :
    Yields (negatable inner left negated) (word :: opening :: (us ++ [closing]))
      (.inList left list negated) follow := by
  intro s follows
  have noQuery : (s.prepend (opening :: (us ++ [closing]))).cursor.opensQuery = false := by
    apply opensQuery_prepend opens rfl
    rintro t (⟨starred, -⟩ | begins)
    · exact absurd starred Bool.false_ne_true
    · exact ⟨begins.kind_ne rfl, begins.kind_ne rfl⟩
  have beforeEnd : Next [closing] follow EndsList := endsList_of_rightParen closes
  rw [negatable, bind_some (acceptKeyword_prepend is), if_pos rfl, membership, bind_look, noQuery,
    if_neg Bool.false_ne_true, bind_some (acceptPunctuation_prepend isOpening), if_pos rfl,
    bind_some (members.before beforeEnd follows), bind_some (closeParen_prepend closes)]
  rfl

theorem negatable_between {and : Token} {lows highs : List Token} {low high : Expression}
    (is : word.kind = .keyword .between)
    (lower : Yields (additive inner) lows low Strength.additive.Stops)
    (isAnd : and.kind = .keyword .and)
    (upper : Yields (additive inner) highs high Strength.additive.Stops) :
    Yields (negatable inner left negated) (word :: (lows ++ and :: highs))
      (.between left low high negated) Strength.additive.Stops := by
  intro s stops
  have noIn : acceptKeyword .in (s.prepend (word :: (lows ++ and :: highs))) =
      (some false, s.prepend (word :: (lows ++ and :: highs))) :=
    acceptKeyword_absent is nofun
  have beforeAnd : Next (and :: highs) Strength.additive.Stops Strength.additive.Stops :=
    Strength.stops_of_kind isAnd (by decide)
  rw [negatable, bind_some noIn, if_neg Bool.false_ne_true, bind_some (acceptKeyword_prepend is),
    if_pos rfl, range]
  refine bind_some (a := some (low, high)) ?_
  rw [attempt, bind_some (lower.before beforeAnd stops), bind_some (requireKeyword_prepend isAnd),
    bind_some (upper s stops)]
  rfl

theorem negatable_like {ps es : List Token} {pattern : Expression} {escape : Option Expression}
    (is : word.kind = .keyword .like)
    (matched : Yields (additive inner) ps pattern Strength.additive.Stops)
    (escaped : YieldsClause .escape (additive inner) Strength.additive.Stops es escape) :
    Yields (negatable inner left negated) (word :: (ps ++ es))
      (.like left pattern escape negated) Strength.predicate.Stops := by
  intro s stops
  have noIn : acceptKeyword .in (s.prepend (word :: (ps ++ es))) =
      (some false, s.prepend (word :: (ps ++ es))) := acceptKeyword_absent is nofun
  have noBetween : acceptKeyword .between (s.prepend (word :: (ps ++ es))) =
      (some false, s.prepend (word :: (ps ++ es))) := acceptKeyword_absent is nofun
  have beforeEscape : Next es Strength.predicate.Stops Strength.additive.Stops := by
    cases escaped with
    | absent => exact fun t stops => stops.mono (by decide)
    | present isEscape => exact Strength.stops_of_kind isEscape (by decide)
  have noEscape : s.cursor.current.kind ≠ .keyword .escape ∧
      Strength.additive.Stops s.cursor.current :=
    ⟨stops.kind_ne (by decide), stops.mono (by decide)⟩
  rw [negatable, bind_some noIn, if_neg Bool.false_ne_true, bind_some noBetween,
    if_neg Bool.false_ne_true, bind_some (acceptKeyword_prepend is), if_pos rfl, Parser.pattern,
    bind_some (matched.attempt.before beforeEscape stops)]
  dsimp only
  rw [← bind_assoc, bind_some (escaped.optional s noEscape)]
  rfl

/-! Chains. -/

end Parser

namespace Strength

open Grammar.Parser

def parser (inner : Level) : Strength → Parser Expression
  | disjunction => Parser.disjunction inner
  | conjunction => Parser.conjunction inner
  | negation => Parser.negation inner
  | predicate => Parser.predicate inner
  | additive => Parser.additive inner
  | multiplicative => Parser.multiplicative inner
  | signed => Parser.signed inner
  | primary => Parser.primary inner

def isChain : Strength → Bool
  | disjunction | conjunction | additive | multiplicative => true
  | negation | predicate | signed | primary => false

/-- Goes on with a chain from the tree of what was read of it. -/
def extend (s : Strength) (inner : Level) : Expression → Parser Expression :=
  iterate (chainRound (s.tighter.parser inner) (Parser.operator? s.operator?) .binary)

/-- Where the reading of an expression of this strength can be taken up again: between the operands
of a chain, else only at its end. -/
def Pauses (s : Strength) (t : Token) : Prop := if s.isChain then s.tighter.Stops t else s.Stops t

variable {inner : Level} {s : Strength} {st : State} {e left right : Expression}
  {t : Token} {ts rs : List Token} {op : BinaryOperator}

theorem Stops.pauses (stops : s.Stops t) : s.Pauses t := by
  unfold Pauses
  split
  · exact stops.mono s.rank_tighter_le
  · exact stops

theorem bindingRank_of_operator? {k : TokenKind} (joins : s.operator? k = some op) :
    bindingRank k = s.rank ∧ k ≠ .endOfInput ∧ s.isChain = true := by
  cases s <;> simp only [operator?, disjunction?, conjunction?, additive?, multiplicative?] at joins
  all_goals first
    | contradiction
    | split at joins <;> simp_all [bindingRank, rank, isChain]

theorem extend_stop (stops : s.Stops st.cursor.current) :
    s.extend inner e st = (some e, st) := by
  have noOperator : s.operator? st.cursor.current.kind = none := by
    cases known : s.operator? st.cursor.current.kind with
    | none => rfl
    | some op =>
        have same := (bindingRank_of_operator? known).1
        rw [Stops, same] at stops
        exact absurd stops (Nat.lt_irrefl _)
  apply iterate_stop
  rw [chainRound, bind_some (operator?_absent noOperator)]
  rfl

theorem extend_next (joins : s.operator? t.kind = some op)
    (back : Yields (s.tighter.parser inner) rs right s.tighter.Stops)
    (stops : s.tighter.Stops st.cursor.current) :
    s.extend inner left (st.prepend (t :: rs)) = s.extend inner (.binary op left right) st := by
  have shorter : st.remaining < (st.prepend (t :: rs)).remaining :=
    State.remaining_lt_prepend (List.cons_ne_nil t rs)
  refine iterate_more ?_ shorter
  rw [chainRound, bind_some (operator?_prepend (bindingRank_of_operator? joins).2.1 joins)]
  dsimp only
  rw [bind_some (back.attempt st stops)]
  rfl

/-- Having read `ts`, the reading of an expression of this strength goes on from `e`. -/
def Continues (s : Strength) (inner : Level) (ts : List Token) (e : Expression) : Prop :=
  ∀ st : State, s.Pauses st.cursor.current → s.parser inner (st.prepend ts) = s.extend inner e st

theorem Continues.yields (continues : s.Continues inner ts e) :
    Yields (s.parser inner) ts e s.Stops := by
  intro st stops
  rw [continues st stops.pauses, extend_stop stops]

theorem continues_of_yields (alone : s.isChain = false)
    (yields : Yields (s.parser inner) ts e s.Stops) : s.Continues inner ts e := by
  intro st pauses
  have stops : s.Stops st.cursor.current := by simpa [Pauses, alone] using pauses
  rw [yields st stops, extend_stop stops]

/-- A chain begins with one operand. -/
theorem continues_of_tighter (opens : (Part.at s.tighter).Opens ts)
    (continues : s.tighter.Continues inner ts e) : s.Continues inner ts e := by
  have yields := continues.yields
  cases s with
  | disjunction | conjunction | additive | multiplicative =>
      exact fun st stops => bind_some (yields st stops)
  | negation =>
      apply continues_of_yields rfl
      exact negation_plain opens (yields.weaken fun _ stops => stops.mono (by decide))
  | predicate => exact continues_of_yields rfl (predicate_plain opens yields)
  | signed =>
      apply continues_of_yields rfl
      exact signed_plain opens (yields.weaken fun _ stops => stops.mono (by decide))
  | primary => exact continues

/-- A chain with one more operand goes on from the tree that has it on its right. -/
theorem Continues.chain (front : s.Continues inner ts left) (joins : s.operator? t.kind = some op)
    (back : Yields (s.tighter.parser inner) rs right s.tighter.Stops) :
    s.Continues inner (ts ++ t :: rs) (.binary op left right) := by
  obtain ⟨binds, -, isChain⟩ := bindingRank_of_operator? joins
  intro st pauses
  have stops : s.tighter.Stops st.cursor.current := by simpa [Pauses, isChain] using pauses
  have pauses' : s.Pauses t := by
    simp only [Pauses, isChain, if_true, Stops, binds]
    cases s <;> first | decide | cases isChain
  rw [← State.prepend_prepend, front _ pauses', extend_next joins back stops]

/-! An operand alone. -/

/-- A chain of one operand. -/
theorem parser_operand {st' : State} (isChain : s.isChain = true)
    (run : s.tighter.parser inner st = (some e, st')) (stops : s.Stops st'.cursor.current) :
    s.parser inner st = (some e, st') := by
  have goesOn : s.parser inner st = s.extend inner e st' := by
    cases s <;> first | exact bind_some run | cases isChain
  rw [goesOn, extend_stop stops]

/-- A primary expression that nothing goes on with is a whole one. -/
theorem disjunction_primary {st' : State} (begins : primary.Begins st.cursor.current)
    (run : Parser.primary inner st = (some e, st'))
    (stops : disjunction.Stops st'.cursor.current) :
    Parser.disjunction inner st = (some e, st') := by
  have signs : Parser.signed inner st = (some e, st') := by
    rw [Parser.signed, bind_some (operator?_absent begins.noSign)]
    exact run
  have sums : Parser.additive inner st = (some e, st') :=
    parser_operand (s := additive) rfl
      (parser_operand (s := multiplicative) rfl signs (stops.mono (by decide)))
      (stops.mono (by decide))
  have noExists : st.cursor.current.isKeyword .exists = false := by
    simpa [Token.isKeyword] using begins.kind_ne (k := .keyword .exists) rfl
  have noIs : acceptKeyword .is st' = (some false, st') :=
    acceptKeyword_absent rfl (stops.kind_ne (by decide))
  have tests : Parser.predicate inner st = (some e, st') := by
    rw [Parser.predicate, bind_check, noExists, if_neg Bool.false_ne_true, bind_some sums,
      bind_some (operator?_absent (noComparison_of_stops (stops.mono (by decide))))]
    dsimp only
    rw [bind_some noIs, if_neg Bool.false_ne_true]
    exact condition_absent (stops.mono (by decide))
  have noNot : acceptKeyword .not st = (some false, st) :=
    acceptKeyword_absent rfl (begins.kind_ne_not (by decide))
  have negates : Parser.negation inner st = (some e, st') := by
    rw [Parser.negation, bind_some noNot, if_neg Bool.false_ne_true]
    exact tests
  exact parser_operand (s := disjunction) rfl
    (parser_operand (s := conjunction) rfl negates (stops.mono (by decide))) stops

end Strength

end QueryNames.Grammar
