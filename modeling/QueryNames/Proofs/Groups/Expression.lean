import QueryNames.Proofs.Groups.Name

/-!
Expressions come back to the depth where they begin.
-/

namespace QueryNames.Grammar

open Grammar.Parser

set_option synthInstance.maxSize 512

/-- At some level of nesting, the parsers of the level inside come back to the depth where they
begin. -/
class Level.Counts (whole : List Token) (inner : Level) : Prop where
  isLevel : ∃ n, inner = level n
  query (n : Nat) : Parser.Counts whole [] n n inner.query
  source (n : Nat) : Parser.Counts whole [] n n inner.source
  expression (n : Nat) : Parser.Counts whole [] n n inner.expression
  negation (n : Nat) : Parser.Counts whole [] n n inner.negation
  signed (n : Nat) : Parser.Counts whole [] n n inner.signed

theorem Level.Counts.stepwise {whole : List Token} {inner : Level} (h : inner.Counts whole) :
    inner.Stepwise where
  query := (h.query 0).stepwise
  source := (h.source 0).stepwise
  expression := (h.expression 0).stepwise
  negation := (h.negation 0).stepwise
  signed := (h.signed 0).stepwise

namespace Parser.Counts

variable {whole : List Token} {n : Nat}

/-- No operator is spelled by a parenthesis. -/
theorem operator {table : TokenKind → Option ω} (ends : table .endOfInput = none)
    (left : table (.punctuation .leftParen) = none)
    (right : table (.punctuation .rightParen) = none) : Counts whole [] n n (operator? table) := by
  apply token
  intro t
  cases found : table t.kind with
  | none => infer_instance
  | some op =>
      have : Ordinary t := by
        apply Ordinary.of_kind rfl
        simp only [TokenKind.isOrdinary, Bool.and_eq_true, bne_iff_ne]
        refine ⟨⟨?_, ?_⟩, ?_⟩ <;> intro is <;> simp_all
      dsimp only
      infer_instance

instance : Counts whole [] n n (operator? sign?) := operator rfl rfl rfl

instance : Counts whole [] n n (operator? multiplicative?) := operator rfl rfl rfl

instance : Counts whole [] n n (operator? additive?) := operator rfl rfl rfl

instance : Counts whole [] n n (operator? comparison?) := operator rfl rfl rfl

instance : Counts whole [] n n (operator? conjunction?) := operator rfl rfl rfl

instance : Counts whole [] n n (operator? disjunction?) := operator rfl rfl rfl

instance (t : Token) [Ordinary t] (e : Expression) : Counts whole [t] n n (leaf e) := by
  unfold leaf
  infer_instance

instance (left : Expression) : Counts whole [] n n (nullTest left) := by
  unfold nullTest
  infer_instance

variable (inner : Level) [h : inner.Counts whole]

instance : Counts whole [] n n inner.query := h.query n

instance : Counts whole [] n n inner.source := h.source n

instance : Counts whole [] n n inner.expression := h.expression n

instance : Counts whole [] n n inner.negation := h.negation n

instance : Counts whole [] n n inner.signed := h.signed n

/-! Subqueries, lists and windows. -/

instance : Counts whole [] n n (subquery inner) := by
  unfold subquery
  infer_instance

instance : Counts whole [] n n (expressionList inner) :=
  inferInstanceAs (Counts whole [] n n (commaList _ _))

instance : Counts whole [] n n (orderItem inner) := by
  unfold orderItem
  infer_instance

instance : Counts whole [] n n (orderList inner) :=
  inferInstanceAs (Counts whole [] n n (commaList _ _))

instance : Counts whole [] n n (argument inner) := by
  apply token
  intro t
  by_cases star : (t.kind == .star) = true
  · have is : t.kind = .star := by simpa using star
    have : Ordinary t := .of_kind is rfl
    infer_instance
  · rw [if_neg star]
    infer_instance

instance : Counts whole [] (n + 1) n (arguments inner) := by
  unfold arguments
  infer_instance

instance : Counts whole [] n n (window inner) := by
  unfold window
  infer_instance

instance : Counts whole [] n n (callHead inner) := by
  unfold callHead
  infer_instance

instance (t : Token) [opening : Opening t] (name : QualifiedName) :
    Counts whole [t] n n (call inner name) := by
  have := h.stepwise
  obtain ⟨m, rfl⟩ := h.isLevel
  have head : Counts whole [] n n (callHead (level m)) := inferInstance
  have tail (list : List Expression) (distinct : Bool) : Counts whole [] n n (do
      if ← acceptKeyword .over then
        return Expression.function name list distinct (some (← window (level m)))
      else return Expression.function name list distinct none) := inferInstance
  apply of_reaches
  rintro c stands ⟨rfl, -⟩
  refine .congr ?_ (call_eq_callHead name opening.opens)
  refine .bind (head.reaches stands trivial) fun read d reads before => ?_
  refine .bind ((PassedOver.ordering m).reaches stands.suffix reads before) fun _ e _ behind => ?_
  exact (tail read.2 read.1).reaches behind trivial

/-! Primary expressions. -/

instance : Counts whole [] n n (whenBranch inner) := by
  unfold whenBranch
  infer_instance

instance (t : Token) [Ordinary t] : Counts whole [t] n n (caseExpression inner) := by
  unfold caseExpression
  infer_instance

class Casting (t : Token) : Prop where
  casts : (t.isWord "CAST" || t.isWord "TRY_CAST") = true

class Converting (t : Token) : Prop where
  converts : (t.isKeyword .convert || t.isWord "TRY_CONVERT") = true

instance (t : Token) [casting : Casting t] : Ordinary t :=
  OnlyOrdinary.ordinary (q := fun t => t.isWord "CAST" || t.isWord "TRY_CAST") t casting.casts

instance (t : Token) [converting : Converting t] : Ordinary t :=
  OnlyOrdinary.ordinary (q := fun t => t.isKeyword .convert || t.isWord "TRY_CONVERT") t
    converting.converts

instance (t : Token) [Ordinary t] : Counts whole [t] n (n + 1) (castHead inner) := by
  unfold castHead
  infer_instance

instance (t : Token) [Ordinary t] : Counts whole [t] n (n + 1) convertHead := by
  unfold convertHead
  infer_instance

instance (t u : Token) [casting : Casting t] [opening : Opening u] :
    Counts whole [t, u] n n (castExpression inner) := by
  have := h.stepwise
  obtain ⟨m, rfl⟩ := h.isLevel
  have head : Counts whole [t] n (n + 1) (castHead (level m)) := inferInstance
  have tail (e : Expression) (type : String) : Counts whole [] (n + 1) n (do
      closeParen
      return Expression.cast e type none) := inferInstance
  apply of_reaches
  rintro c stands ⟨rfl, ahead⟩
  have named : Ordinary c.current := inferInstance
  obtain ⟨rfl, -⟩ := ahead named.isEnd
  refine .congr ?_ (castExpression_eq_castHead opening.opens)
  refine .bind (head.reaches stands ⟨rfl, fun _ => trivial⟩) fun e d reads before => ?_
  refine .bind (dataType_reaches (.cast m) stands.suffix casting.casts reads before)
    fun type d _ behind => ?_
  exact (tail e type).reaches behind trivial

instance (t : Token) [converting : Converting t] :
    Counts whole [t] n n (convertExpression inner) := by
  have := h.stepwise
  have head : Counts whole [t] n (n + 1) convertHead := inferInstance
  have tail (type : String) : Counts whole [] (n + 1) n (do
      requirePunctuation .comma
      let e ← inner.expression
      let style ← requiredIf (← acceptPunctuation .comma) inner.expression
      closeParen
      return Expression.cast e type style) := inferInstance
  apply of_reaches
  rintro c stands ⟨rfl, -⟩
  rw [convertExpression_eq_convertHead]
  refine .bind (head.reaches stands ⟨rfl, fun _ => trivial⟩) fun _ d reads before => ?_
  refine .bind (dataType_reaches .conversion stands.suffix converting.converts reads before)
    fun type d _ behind => ?_
  exact (tail type).reaches behind trivial

instance (t : Token) [Ordinary t] : Counts whole [t] n n (existsExpression inner) := by
  unfold existsExpression
  infer_instance

instance (t : Token) [Opening t] : Counts whole [t] n n (parenthesized inner) := by
  unfold parenthesized
  infer_instance

instance : Counts whole [] n n (columnOrCall inner) := by
  unfold columnOrCall
  infer_instance

/-- A name is told by the token behind it. -/
theorem named_counts {t : Token} (isName : t.kind = .identifier) (next : Token) :
    Counts whole [t, next] n n (named inner t next) := by
  have : Ordinary t := .of_kind isName rfl
  unfold named
  dsimp only
  split
  · rename_i called
    simp only [Bool.and_eq_true] at called
    have : Opening next := ⟨called.1.2⟩
    have : Casting t := ⟨called.2⟩
    infer_instance
  · split
    · rename_i called
      simp only [Bool.and_eq_true] at called
      have : Converting t := ⟨by simp [called.2]⟩
      infer_instance
    · infer_instance

instance : Counts whole [] n n (primary inner) := by
  apply token
  intro t
  apply following
  intro u
  have called : Ordinary t → ∀ e, Counts whole [t, u] n n (if u.isPunctuation .leftParen then do
      Parser.advance
      call inner e
      else missing .expression) := by
    intro _ e
    split
    · have : Opening u := ⟨‹_›⟩
      infer_instance
    · infer_instance
  split
  · rename_i is
    have : Ordinary t := .of_kind is rfl
    infer_instance
  · rename_i is
    have : Ordinary t := .of_kind is rfl
    infer_instance
  · rename_i is
    have : Ordinary t := .of_kind is rfl
    infer_instance
  · rename_i is
    have : Ordinary t := .of_kind is rfl
    infer_instance
  · rename_i is
    have : Ordinary t := .of_kind is rfl
    infer_instance
  · rename_i is
    have : Converting t := ⟨by simp [Token.isKeyword, is]⟩
    infer_instance
  · rename_i is
    have : Ordinary t := .of_kind is rfl
    infer_instance
  · rename_i is
    exact called (.of_kind is rfl) _
  · rename_i is
    exact called (.of_kind is rfl) _
  · rename_i is
    have : Opening t := ⟨by simp [Token.isPunctuation, is]⟩
    infer_instance
  · rename_i is
    exact named_counts inner is u
  · infer_instance

/-! Operators. -/

instance : Counts whole [] n n (signed inner) := by
  apply next
  intro op?
  cases op? <;> infer_instance

instance : Counts whole [] n n (multiplicative inner) :=
  inferInstanceAs (Counts whole [] n n (chainLeft _ _ _))

instance : Counts whole [] n n (additive inner) :=
  inferInstanceAs (Counts whole [] n n (chainLeft _ _ _))

instance (t : Token) [Ordinary t] : Counts whole [t] n n (quantifiedOperand inner true) := by
  unfold quantifiedOperand
  infer_instance

instance : Counts whole [] n n (quantifiedOperand inner false) :=
  inferInstanceAs (Counts whole [] n n (additive inner))

instance : Counts whole [] n n (comparand inner) := by
  rw [comparand_eq]
  infer_instance

instance (left : Expression) (negated : Bool) :
    Counts whole [] n n (membership inner left negated) := by
  unfold membership
  infer_instance

instance (left : Expression) (negated : Bool) : Counts whole [] n n (range inner left negated) := by
  unfold range
  infer_instance

instance (left : Expression) (negated : Bool) :
    Counts whole [] n n (pattern inner left negated) := by
  unfold pattern
  infer_instance

instance (left : Expression) : Counts whole [] n n (condition inner left) := by
  unfold condition
  infer_instance

instance (left : Expression) (op : BinaryOperator) :
    Counts whole [] n n (comparisonTail inner left op) := by
  unfold comparisonTail
  infer_instance

instance (left : Expression) : Counts whole [] n n (testTail inner left) := by
  unfold testTail
  infer_instance

instance (left : Expression) : Counts whole [] n n (predicateTail inner left) := by
  rw [predicateTail_eq]
  apply next
  intro op?
  cases op? <;> infer_instance

instance : Counts whole [] n n (predicate inner) := by
  rw [predicate_eq]
  infer_instance

instance : Counts whole [] n n (negation inner) := by
  unfold negation
  infer_instance

instance : Counts whole [] n n (conjunction inner) :=
  inferInstanceAs (Counts whole [] n n (chainLeft _ _ _))

instance : Counts whole [] n n (disjunction inner) :=
  inferInstanceAs (Counts whole [] n n (chainLeft _ _ _))

end Parser.Counts

end QueryNames.Grammar
