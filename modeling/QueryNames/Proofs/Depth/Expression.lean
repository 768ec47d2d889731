import QueryNames.Proofs.Depth.Rules
import QueryNames.Proofs.Stepwise.Expression

/-!
Names and expressions come back to the depth where they begin.
-/

namespace QueryNames.Grammar.Parser

variable {stretch : Stretch} {low : Nat}

namespace KeepsFrom

variable {A : Cursor → Prop}

/-! Names and data types. -/

theorem identifier : Keeps stretch low identifier := by
  refine look fun t => ?_
  by_cases kind : (t.kind == .identifier) = true
  · rw [if_pos kind]
    refine (advanceOver (k := .identifier) ?_ rfl).bind fun _ => pure
    rintro c ⟨-, rfl⟩
    simpa using kind
  · rw [if_neg kind]
    exact giveUp

theorem requireIdentifier {expected : Expected} :
    Keeps stretch low (requireIdentifier expected) := by
  refine identifier.attempt.bind fun name? => ?_
  cases name? with
  | none => exact missing
  | some name => exact pure

theorem qualifiedName : Keeps stretch low qualifiedName := by
  refine identifier.attempt.bind fun first? => ?_
  cases first? with
  | none => exact missing
  | some first =>
      refine bind (collect ?_) fun _ => pure
      refine bind (acceptPunctuation nofun nofun) fun period => ?_
      split
      · refine look fun _ => ?_
        split
        · exact pure
        · refine bind identifier.attempt.always fun part? => ?_
          cases part? with
          | none => exact reportMissing.bind fun _ => pure
          | some part => exact pure
      · exact pure

theorem identifierList :
    KeepsFrom stretch low (fun c => c.current.kind = .punctuation .leftParen) identifierList := by
  refine group (.advance fun _ => id) fun _ => ?_
  refine .step (commaList requireIdentifier fun none => by omega) fun _ => ?_
  exact .bind .closeParen fun _ => pure

theorem columnNames : Keeps stretch low columnNames := by
  refine look fun opens => ?_
  split
  · refine identifierList.weaken ?_
    rintro c ⟨-, rfl⟩
    simp_all [Token.isPunctuation]
  · exact pure

/-- The arguments of a type go past whatever parenthesis opens in them. -/
theorem typeArguments (unsound : ¬stretch.sound) : Keeps stretch 1 typeArguments := by
  refine bind (collect (look fun t => ?_)) fun _ => pure
  split
  · exact pure
  · rename_i goesOn
    refine bind (advanceInCast unsound ?_) fun _ => pure
    rintro c ⟨-, rfl⟩ closes
    simp [Token.isPunctuation, closes] at goesOn

theorem dataType (unsound : ¬stretch.sound) : Keeps stretch low dataType := by
  refine qualifiedName.bind fun name => ifOpening ?_ pure
  refine .cast unsound (typeArguments unsound) fun _ => ?_
  exact .bind .closeParen fun _ => pure

/-- Of a type that is read as it should be, just its own group is passed. -/
theorem dataType_reads {depth : Nat} {K E : State → Prop} :
    DepthTriple stretch (fun s => Within stretch depth s ∧ ∃ s', ReadsType s s' ∧ K s')
      Parser.dataType (fun _ s => Within stretch depth s ∧ K s) E := by
  refine ⟨inferInstance, ?_⟩
  rintro s ⟨⟨within, s', ⟨⟨type, run⟩, same⟩, known⟩, guarded⟩
  have named : Within stretch depth (Parser.qualifiedName s).2 := by
    unfold Parser.dataType at guarded
    have keeps : Keeps stretch 0 Parser.qualifiedName := qualifiedName
    exact (keeps depth (Nat.zero_le _)).holds.ends ⟨⟨within, trivial⟩, guarded.first⟩
  have passed := named.skipParenthesized
  rw [run]
  exact ⟨by rwa [Within, same], known⟩

/-! Parts of expressions that hold no level of their own. -/

theorem leaf {k : TokenKind} {e : Expression} (is : ∀ c, A c → c.current.kind = k)
    (plain : k.isPlain = true) : KeepsFrom stretch low A (leaf e) :=
  (advanceOver is plain).bind fun _ => pure

/-- No operator is spelled by a parenthesis or by `FROM`. -/
theorem operator? {table : TokenKind → Option ω} (left : table (.punctuation .leftParen) = none)
    (right : table (.punctuation .rightParen) = none) (before : table (.keyword .from) = none) :
    Keeps stretch low (operator? table) := by
  refine look fun t => ?_
  split
  · rename_i op found
    refine bind (advanceOver (k := t.kind) ?_ ?_) fun _ => pure
    · rintro c ⟨-, rfl⟩
      rfl
    · cases plain : t.kind.isPlain with
      | true => rfl
      | false =>
          rcases isPlain_eq_false plain with kind | kind | kind
          · simp [kind, left] at found
          · simp [kind, right] at found
          · simp [kind, before] at found
  · exact pure

theorem binaries {operand : Parser Expression} {table : TokenKind → Option BinaryOperator}
    (keeps : Keeps stretch low operand) (left : table (.punctuation .leftParen) = none)
    (right : table (.punctuation .rightParen) = none) (before : table (.keyword .from) = none) :
    Keeps stretch low (Parser.chainLeft operand (Parser.operator? table) .binary) :=
  chainLeft keeps (operator? left right before)

theorem nullTest (left : Expression) : Keeps stretch low (nullTest left) := by
  refine bind (acceptKeyword nofun) fun negated => ?_
  refine bind (succeeds (requireKeyword nofun)) fun _ => ?_
  split <;> exact pure

/-- A token that is known to be there is passed where it is required. -/
theorem required {depth : Nat} {p : Parser Unit} {kind : TokenKind} {K E : State → Prop}
    (keeps : Keeps stretch 0 p)
    (runs : ∀ s : State, s.cursor.current.kind = kind →
      p s = (some (), { s with cursor := s.cursor.advance })) :
    DepthTriple stretch
      (fun s => Within stretch depth s ∧ s.cursor.current.kind = kind ∧
        K { s with cursor := s.cursor.advance })
      p (fun _ s => Within stretch depth s ∧ K s) E :=
  ((keeps depth (Nat.zero_le depth)).of_known
    (K := fun s => s.cursor.current.kind = kind ∧ K { s with cursor := s.cursor.advance })
    (R := fun _ => K) fun s known => ⟨(), _, runs s known.1, known.2⟩).weaken
    (fun _ start => ⟨⟨start.1, trivial⟩, start.2⟩) (fun _ _ => id) (fun _ => id)

end KeepsFrom

/-- The parsers of the level inside come back to the depth where they begin, queries and sources
if they stand in parentheses. -/
structure LevelKeeps (stretch : Stretch) (inner : Level) : Prop where
  isLevel : ∃ n, inner = level n
  query : Keeps stretch 1 inner.query
  source : Keeps stretch 1 inner.source
  expression : Keeps stretch 0 inner.expression
  negation : Keeps stretch 0 inner.negation
  signed : Keeps stretch 0 inner.signed

namespace LevelKeeps

variable {inner : Level} (h : LevelKeeps stretch inner)

include h

theorem stepwise : inner.Stepwise :=
  ⟨h.query.stepwise, h.source.stepwise, h.expression.stepwise, h.negation.stepwise,
    h.signed.stepwise⟩

/-- An expression that is known to be read comes back with what is known behind it. -/
theorem expression_reads {depth : Nat} {K E : State → Prop} :
    DepthTriple stretch
      (fun s => Within stretch depth s ∧ ∃ e s', inner.expression s = (some e, s') ∧ K s')
      inner.expression (fun _ s => Within stretch depth s ∧ K s) E :=
  ((h.expression depth (Nat.zero_le depth)).of_known fun _ reads => reads).weaken
    (fun _ start => ⟨⟨start.1, trivial⟩, start.2⟩) (fun _ _ => id) (fun _ => id)

theorem subquery : Keeps stretch low (subquery inner) := by
  refine .look fun opens => ?_
  split
  · refine .group (.advance ?_) fun _ => ?_
    · rintro c ⟨-, rfl⟩
      simp_all [Cursor.opensQuery, Token.isPunctuation]
    · refine .step h.query.attempt fun query? => ?_
      exact .bind .closeParen fun _ => .ofOption
  · exact .missing

theorem expressionList : Keeps stretch low (expressionList inner) :=
  .commaList h.expression.deeper fun _ _ => KeepsFrom.endsItem_of_from

theorem orderItem : Keeps stretch low (orderItem inner) := by
  refine .bind h.expression.deeper fun e => .bind (.acceptKeyword nofun) fun _ => ?_
  split
  · exact .pure
  · refine .bind (.acceptKeyword nofun) fun _ => ?_
    split <;> exact .pure

theorem orderList : Keeps stretch low (orderList inner) :=
  .commaList h.orderItem fun _ t kind => by simp [endsOrderItem, KeepsFrom.endsItem_of_from kind]

theorem argument : Keeps stretch low (argument inner) := by
  refine .look fun t => ?_
  split
  · refine .bind (.advanceOver (k := .star) ?_ rfl) fun _ => .pure
    rintro c ⟨-, rfl⟩
    simp_all
  · exact .always h.expression.deeper

theorem arguments : Leaves stretch low (arguments inner) := by
  refine .ifClosing .pure ?_
  refine .step (.commaList h.argument fun none => by omega) fun list => ?_
  exact .bind .closeParen fun _ => .pure

theorem window : Keeps stretch low (window inner) := by
  refine .group .requirePunctuation fun _ => ?_
  refine .step .acceptWord fun _ => ?_
  refine .step (.onlyIf (.bind (.requireKeyword nofun) fun _ => h.expressionList))
    fun partition? => ?_
  refine .step (.acceptKeyword nofun) fun _ => ?_
  refine .step (.onlyIf (.bind (.requireKeyword nofun) fun _ => h.orderList)) fun order? => ?_
  refine .step .looking fun _ => .step (.onlyIf .skipGroup) fun _ => ?_
  exact .bind .closeParen fun _ => .pure

theorem call (name : QualifiedName) :
    KeepsFrom stretch low (fun c => c.current.kind = .punctuation .leftParen)
      (call inner name) := by
  refine .group (.advance fun _ => id) fun _ => ?_
  refine .step (.acceptKeyword nofun) fun distinct => ?_
  refine .step (.onlyIf (.acceptKeyword nofun)) fun _ => .bind h.arguments fun list => ?_
  refine .bind .acceptWord fun _ => ?_
  refine .bind (.onlyIf (.bind (.acceptKeyword nofun) fun _ => .skipParenthesized)) fun _ => ?_
  refine .bind (.acceptKeyword nofun) fun _ => ?_
  split
  · exact .bind h.window fun window => .pure
  · exact .pure

/-! Primary expressions. -/

theorem whenBranch : Keeps stretch low (whenBranch inner) := by
  refine .bind (.acceptKeyword nofun) fun _ => ?_
  split
  · refine .bind h.expression.deeper fun condition => .bind (.requireKeyword nofun) fun _ => ?_
    exact .bind h.expression.deeper fun result => .pure
  · exact .pure

theorem caseExpression :
    KeepsFrom stretch low (fun c => c.current.kind = .keyword .case) (caseExpression inner) := by
  refine .bind (.advanceOver (fun _ => id) rfl) fun _ => ?_
  refine .look fun _ => .bind (.requiredIf (.always h.expression.deeper)) fun operand? => ?_
  refine .bind (.collect h.whenBranch) fun branches => ?_
  split
  · exact .missing
  · refine .bind (.acceptKeyword nofun) fun _ => ?_
    refine .bind (.requiredIf h.expression.deeper) fun otherwise? => ?_
    exact .bind (.requireKeyword nofun) fun _ => .pure

/-- A complete cast is passed up to its closing parenthesis. -/
theorem castExpression_complete (sound : stretch.sound) :
    KeepsFrom stretch low
      (fun c => c.current.kind = .identifier ∧ c.current.namesCast = true ∧
        (c.peek 1).isPunctuation .leftParen = true)
      (castExpression inner) := by
  have stepwise := h.stepwise
  obtain ⟨n, rfl⟩ := h.isLevel
  refine fun depth deep => .of_deep (fun _ => And.left) fun out => ?_
  apply GuardedTriple.of_guarded (i := Cast.as n)
  refine .bind (Q := fun _ s => (Within stretch depth s ∧
      s.cursor.current.kind = .punctuation .leftParen) ∧
      ReadsAs n { s with cursor := s.cursor.advance }) (.of (.move ?_)) fun _ => ?_
  · rintro s ⟨⟨within, kind, named, opens⟩, complete⟩
    refine ⟨⟨within.pass (isParen_eq_false kind rfl) (by simp [kind]), ?_⟩, complete sound ?_⟩
    · rw [within.current_advance]
      exact Token.isPunctuation_iff.1 opens
    · rw [within.opensCast_tokens, named, opens, Bool.true_and]
  refine .bind (Q := fun _ s => Within stretch (depth + 1) s ∧ ReadsAs n s) (.of (.move ?_))
    fun _ => ?_
  · exact fun s start => ⟨start.1.1.enter start.1.2, start.2⟩
  refine .bind h.expression_reads fun e => ?_
  refine .bind (KeepsFrom.required (K := fun s => ∃ s', ReadsType s s')
    (.requireKeyword (k := .as) nofun) fun _ => requireKeyword_present) fun _ => ?_
  refine .bind (Q := fun _ => Within stretch (depth + 1)) ?_ fun type =>
    (Leaves.bind .closeParen fun _ => .pure) depth deep out
  refine (KeepsFrom.dataType_reads (K := fun _ => True)).weaken (fun s start => ?_)
    (fun _ _ => And.left) (fun _ => id)
  obtain ⟨s', reads⟩ := start.2
  exact ⟨start.1, s', reads, trivial⟩

theorem convertExpression_complete (sound : stretch.sound) :
    KeepsFrom stretch low (fun c => c.current.namesCast = true) (convertExpression inner) := by
  have stepwise := h.stepwise
  obtain ⟨n, rfl⟩ := h.isLevel
  refine fun depth deep => .of_deep (fun _ => And.left) fun out => ?_
  apply GuardedTriple.of_guarded (i := Cast.comma n)
  refine .bind (Q := fun _ s => Within stretch depth s ∧
      (s.cursor.current.isPunctuation .leftParen = true →
        ReadsComma n { s with cursor := s.cursor.advance })) (.of (.move ?_)) fun _ => ?_
  · rintro s ⟨⟨within, named⟩, complete⟩
    refine ⟨within.pass (KeepsFrom.isParen_of_namesCast named) fun _ =>
      KeepsFrom.not_from_of_namesCast named, fun opens => complete sound ?_⟩
    rw [within.opensCast_tokens, named, ← within.current_advance, opens, Bool.true_and]
  refine .bind EntersFrom.requiredOpening fun _ => ?_
  refine .bind KeepsFrom.dataType_reads fun type => ?_
  refine .bind (KeepsFrom.required (K := fun s => ∃ e s', (level n).expression s = (some e, s') ∧
      (s'.cursor.current.kind = .punctuation .comma → ∃ style s'',
        (level n).expression { s' with cursor := s'.cursor.advance } = (some style, s'')))
    (.requirePunctuation (p := .comma) nofun nofun) fun _ => requirePunctuation_present)
    fun _ => ?_
  refine .bind h.expression_reads fun e => ?_
  refine .bind (Q := fun more s => Within stretch (depth + 1) s ∧ (more = true →
      ∃ style s', (level n).expression s = (some style, s')))
    (.accept (fun s start found => ?_) (fun s start _ => ⟨start.1, nofun⟩)) fun more => ?_
  · have kind : s.cursor.current.kind = .punctuation .comma := Token.isPunctuation_iff.1 found
    exact ⟨start.1.pass (isParen_eq_false kind rfl) (by simp [kind]), fun _ => start.2 kind⟩
  refine .bind (Q := fun _ => Within stretch (depth + 1)) ?_ fun style? =>
    (Leaves.bind .closeParen fun _ => .pure) depth deep out
  cases more with
  | false => exact .pure fun _ => And.left
  | true =>
      rw [requiredIf, if_pos rfl, ← bind_pure_comp]
      refine .bind (Q := fun _ => Within stretch (depth + 1)) ?_ fun style => .pure fun _ => id
      refine (h.expression_reads (K := fun _ => True)).weaken (fun s start => ?_)
        (fun _ _ => And.left) (fun _ => id)
      obtain ⟨style, s', reads⟩ := start.2 rfl
      exact ⟨start.1, style, s', reads, trivial⟩

/-- Where a cast breaks off, its group stays open. -/
theorem castExpression :
    KeepsFrom stretch low
      (fun c => c.current.kind = .identifier ∧ c.current.namesCast = true ∧
        (c.peek 1).isPunctuation .leftParen = true)
      (castExpression inner) := by
  by_cases sound : stretch.sound
  · exact h.castExpression_complete sound
  · refine .nameAndGroup (fun _ begins => begins.1) rfl (fun _ begins => begins.2.2) ?_
    refine .group (.advance fun _ => id) fun _ => ?_
    refine .cast sound h.expression.deeper fun e => ?_
    refine .cast sound (.requireKeyword nofun) fun _ => .cast sound (.dataType sound) fun type => ?_
    exact .bind .closeParen fun _ => .pure

theorem convertExpression :
    KeepsFrom stretch low (fun c => c.current.namesCast = true) (convertExpression inner) := by
  by_cases sound : stretch.sound
  · exact h.convertExpression_complete sound
  · refine .bind (.advance (fun c start => KeepsFrom.isParen_of_namesCast start)
      fun _ c start => KeepsFrom.not_from_of_namesCast start) fun _ => ?_
    refine .group .requirePunctuation fun _ => .cast sound (.dataType sound) fun type => ?_
    refine .cast sound (.requirePunctuation nofun nofun) fun _ => ?_
    refine .cast sound h.expression.deeper fun e => ?_
    refine .step (.acceptPunctuation nofun nofun) fun _ => ?_
    refine .cast sound (.requiredIf h.expression.deeper) fun style? => ?_
    exact .bind .closeParen fun _ => .pure

theorem existsExpression :
    KeepsFrom stretch low (fun c => c.current.kind = .keyword .exists)
      (existsExpression inner) :=
  .bind (.advanceOver (fun _ => id) rfl) fun _ => .bind h.subquery fun _ => .pure

theorem parenthesized :
    KeepsFrom stretch low (fun c => c.current.kind = .punctuation .leftParen)
      (parenthesized inner) := by
  refine .look fun _ => ?_
  split
  · exact .bind (.always h.subquery) fun _ => .pure
  · refine .group (.advance fun _ start => start.1) fun _ => ?_
    refine .step h.expression.deeper.attempt fun e? => .bind .closeParen fun _ => ?_
    exact .bind .ofOption fun _ => .pure

theorem columnOrCall : Keeps stretch low (columnOrCall inner) := by
  refine .look fun location => .bind (.always .qualifiedName) fun name => .look fun opens => ?_
  split
  · refine (h.call name).weaken ?_
    rintro c ⟨-, rfl⟩
    simp_all [Token.isPunctuation]
  · exact .pure

theorem named (t next : Token) (kind : t.kind = .identifier) :
    KeepsFrom stretch low (fun c => c.current = t ∧ c.peek 1 = next) (named inner t next) := by
  dsimp only [Parser.named]
  split
  · rename_i called
    simp only [Bool.and_eq_true] at called
    obtain ⟨⟨plain, opens⟩, word⟩ := called
    refine h.castExpression.weaken ?_
    rintro c ⟨rfl, rfl⟩
    refine ⟨kind, ?_, opens⟩
    rcases Bool.or_eq_true_iff.1 word with word | word <;> simp [Token.namesCast, plain, word]
  · split
    · rename_i called
      simp only [Bool.and_eq_true] at called
      obtain ⟨⟨plain, -⟩, word⟩ := called
      refine h.convertExpression.weaken ?_
      rintro c ⟨rfl, rfl⟩
      simp [Token.namesCast, plain, word]
    · split
      · refine .bind (.advanceOver (k := .identifier) ?_ rfl) fun _ => .pure
        rintro c ⟨rfl, rfl⟩
        exact kind
      · exact .always h.columnOrCall

theorem primary : Keeps stretch low (primary inner) := by
  refine .look fun t => .look fun next => ?_
  split
  · rename_i kind
    exact .leaf (k := .numberLiteral) (fun c start => start.1.2 ▸ kind) rfl
  · rename_i kind
    exact .leaf (k := .stringLiteral) (fun c start => start.1.2 ▸ kind) rfl
  · rename_i kind
    exact .leaf (k := .variable) (fun c start => start.1.2 ▸ kind) rfl
  · rename_i kind
    exact .leaf (k := .keyword .null) (fun c start => start.1.2 ▸ kind) rfl
  · rename_i kind
    exact h.caseExpression.weaken fun c start => start.1.2 ▸ kind
  · rename_i kind
    refine h.convertExpression.weaken fun c start => ?_
    rw [start.1.2]
    simp [Token.namesCast, Token.isKeyword, kind]
  · rename_i kind
    exact h.existsExpression.weaken fun c start => start.1.2 ▸ kind
  · rename_i kind
    split
    · rename_i opens
      exact .nameAndGroup (k := .keyword .left) (fun c start => start.1.2 ▸ kind) rfl
        (fun c start => start.2 ▸ opens) (h.call _)
    · exact .missing
  · rename_i kind
    split
    · rename_i opens
      exact .nameAndGroup (k := .keyword .right) (fun c start => start.1.2 ▸ kind) rfl
        (fun c start => start.2 ▸ opens) (h.call _)
    · exact .missing
  · rename_i kind
    exact h.parenthesized.weaken fun c start => start.1.2 ▸ kind
  · rename_i kind
    exact (h.named t next kind).weaken fun c start => ⟨start.1.2, start.2⟩
  · exact .missing

/-! Operators. -/

theorem signs : Keeps stretch low (Parser.signed inner) := by
  refine .bind (.operator? rfl rfl rfl) fun op? => ?_
  cases op? with
  | none => exact h.primary
  | some op => exact .bind h.signed.deeper fun e => .pure

theorem multiplicative : Keeps stretch low (multiplicative inner) :=
  .binaries h.signs rfl rfl rfl

theorem additive : Keeps stretch low (additive inner) := .binaries h.multiplicative rfl rfl rfl

theorem comparand : Keeps stretch low (comparand inner) := by
  refine .look fun quantified => .look fun next => ?_
  split
  · rename_i quantifies
    have kinds (c : Cursor) (here : (c.current.isKeyword .all || c.current.isWord "ANY" ||
        c.current.isWord "SOME") = quantified) :
        c.current.kind = .keyword .all ∨ c.current.kind = .identifier := by
      rw [(Bool.and_eq_true_iff.1 quantifies).1] at here
      rcases Bool.or_eq_true_iff.1 here with here | word
      · rcases Bool.or_eq_true_iff.1 here with all | word
        · exact .inl (Token.isKeyword_iff.1 all)
        · exact .inr (KeepsFrom.kind_of_isWord word)
      · exact .inr (KeepsFrom.kind_of_isWord word)
    refine .bind (.advance (fun c start => ?_) (fun _ c start => ?_)) fun _ =>
      .bind h.subquery fun query => .pure
    · rcases kinds c start.1.2 with kind | kind <;> exact isParen_eq_false kind rfl
    · rcases kinds c start.1.2 with kind | kind <;> simp [kind]
  · exact .always h.additive

theorem membership (left : Expression) (negated : Bool) :
    Keeps stretch low (membership inner left negated) := by
  refine .look fun _ => ?_
  split
  · refine .bind (.always h.subquery.attempt) fun query? => ?_
    cases query? with
    | none => exact .pure
    | some query => exact .pure
  · refine .always (.ifOpening ?_ ?_)
    · refine .step h.expressionList fun list => ?_
      exact .bind .closeParen fun _ => .pure
    · exact .bind .reportMissing fun _ => .pure

theorem range (left : Expression) (negated : Bool) :
    Keeps stretch low (range inner left negated) := by
  refine .bind (.attempt (.bind h.additive fun low => .bind (.requireKeyword nofun) fun _ =>
    .bind h.additive fun high => .pure)) fun bounds? => ?_
  cases bounds? with
  | none => exact .pure
  | some bounds => exact .pure

theorem pattern (left : Expression) (negated : Bool) :
    Keeps stretch low (pattern inner left negated) := by
  refine .bind h.additive.attempt fun pattern? => ?_
  cases pattern? with
  | none => exact .pure
  | some pattern =>
      exact .bind (.acceptKeyword nofun) fun _ => .bind (.onlyIf h.additive) fun escape? => .pure

theorem condition (left : Expression) : Keeps stretch low (condition inner left) := by
  have kind_of (t next : Token) (negates : (t.isKeyword .not &&
      (next.isKeyword .in || next.isKeyword .between || next.isKeyword .like)) = true) :
      t.kind = .keyword .not :=
    Token.isKeyword_iff.1 (Bool.and_eq_true_iff.1 negates).1
  refine .look fun next => .bind (.accept (fun t negates => ?_) (fun _ t negates => ?_))
    fun negated => ?_
  · exact isParen_eq_false (kind_of t next negates) rfl
  · simp [kind_of t next negates]
  · refine .bind (.acceptKeyword nofun) fun isIn => ?_
    split
    · exact h.membership left negated
    · refine .bind (.acceptKeyword nofun) fun isBetween => ?_
      split
      · exact h.range left negated
      · refine .bind (.acceptKeyword nofun) fun isLike => ?_
        split
        · exact h.pattern left negated
        · exact .pure

theorem predicate : Keeps stretch low (predicate inner) := by
  refine .look fun exists_ => ?_
  split
  · refine h.existsExpression.weaken ?_
    rintro c ⟨-, rfl⟩
    exact Token.isKeyword_iff.1 ‹_›
  · refine .bind (.always h.additive) fun left => .bind (.operator? rfl rfl rfl) fun op? => ?_
    cases op? with
    | some op =>
        refine .bind h.comparand.attempt fun right? => ?_
        cases right? with
        | none => exact .pure
        | some right => exact .pure
    | none =>
        refine .bind (.acceptKeyword nofun) fun _ => ?_
        split
        · exact .nullTest left
        · exact h.condition left

theorem negations : Keeps stretch low (Parser.negation inner) := by
  refine .bind (.acceptKeyword nofun) fun _ => ?_
  split
  · exact .bind h.negation.deeper fun e => .pure
  · exact h.predicate

theorem conjunction : Keeps stretch low (conjunction inner) := .binaries h.negations rfl rfl rfl

theorem disjunction : Keeps stretch low (disjunction inner) := .binaries h.conjunction rfl rfl rfl

end LevelKeeps

end QueryNames.Grammar.Parser
