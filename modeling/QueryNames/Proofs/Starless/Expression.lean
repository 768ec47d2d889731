import QueryNames.Proofs.Starless.Rules

/-!
Expressions without stars. What is multiplied, or counted, selects nothing.
-/

namespace QueryNames.Grammar

open Grammar.Parser

set_option synthInstance.maxSize 2048

/-- The parsers of the level inside select no star where none stands ahead. -/
class Level.Starless (inner : Level) : Prop extends inner.Stepwise where
  barQuery : Parser.Starless inner.query
  barSource : Parser.Starless inner.source
  barExpression : Parser.Starless inner.expression
  barNegation : Parser.Starless inner.negation
  barSigned : Parser.Starless inner.signed

namespace Parser.Starless

variable (inner : Level) [h : inner.Starless]

instance : Starless inner.query := h.barQuery

instance : Starless inner.source := h.barSource

instance : Starless inner.expression := h.barExpression

instance : Starless inner.negation := h.barNegation

instance : Starless inner.signed := h.barSigned

/-! Subqueries, lists and windows. -/

instance : Starless (subquery inner) := by
  unfold subquery
  infer_instance

instance : Starless (expressionList inner) := inferInstanceAs (Starless (commaList _ _))

instance : Starless (orderItem inner) := by
  unfold orderItem
  infer_instance

instance : Starless (orderList inner) := inferInstanceAs (Starless (commaList _ _))

instance : Starless (argument inner) := by
  unfold argument
  infer_instance

instance : Starless (arguments inner) := by
  unfold arguments
  infer_instance

instance : Starless (window inner) := by
  unfold window
  infer_instance

instance (name : QualifiedName) : Starless (call inner name) := by
  unfold call
  infer_instance

/-! Primary expressions. -/

instance : Starless (whenBranch inner) := by
  unfold whenBranch
  infer_instance

instance : Starless (caseExpression inner) := by
  unfold caseExpression
  infer_instance

instance : Starless (castExpression inner) := by
  unfold castExpression
  infer_instance

instance : Starless (convertExpression inner) := by
  unfold convertExpression
  infer_instance

instance : Starless (existsExpression inner) := by
  unfold existsExpression
  infer_instance

instance : Starless (parenthesized inner) := by
  unfold parenthesized
  infer_instance

instance : Starless (columnOrCall inner) := by
  unfold columnOrCall
  infer_instance

instance (t next : Token) : Starless (named inner t next) := by
  unfold named
  infer_instance

instance (e : Expression) [Unstarred e] : Starless (leaf e) := by
  unfold leaf
  infer_instance

instance : Starless (primary inner) := by
  apply next
  intro t
  apply next
  intro following
  split <;> infer_instance

/-! Operators. -/

instance : Starless (signed inner) := by
  apply nextOption
  · exact inferInstanceAs (Starless (primary inner))
  · intro op
    infer_instance

instance : Starless (multiplicative inner) := inferInstanceAs (Starless (chainLeft _ _ _))

instance : Starless (additive inner) := inferInstanceAs (Starless (chainLeft _ _ _))

instance : Starless (comparand inner) := by
  unfold comparand
  infer_instance

section Conditions

variable (left : Expression) [Unstarred left] (negated : Bool)

instance : Starless (memberQuery inner left negated) := by
  apply nextOption
  · exact inferInstanceAs (Starless (pure left))
  · intro query
    exact inferInstanceAs (Starless (pure _))

instance : Starless (membership inner left negated) := by
  rw [membership_eq]
  infer_instance

instance : Starless (range inner left negated) := by
  apply nextOption
  · exact inferInstanceAs (Starless (pure left))
  · rintro ⟨⟨low, high⟩, bare⟩
    have bounds : starred low = false ∧ starred high = false := by simpa [starred] using bare
    have : Unstarred low := ⟨bounds.1⟩
    have : Unstarred high := ⟨bounds.2⟩
    exact inferInstanceAs (Starless (pure _))

instance : Starless (pattern inner left negated) := by
  apply nextOption
  · exact inferInstanceAs (Starless (pure left))
  · intro pattern
    dsimp only
    infer_instance

instance : Starless (nullTest left) := by
  unfold nullTest
  infer_instance

instance : Starless (condition inner left) := by
  unfold condition
  infer_instance

instance (op : BinaryOperator) : Starless (comparisonTail inner left op) := by
  apply nextOption
  · exact inferInstanceAs (Starless (pure left))
  · intro right
    exact inferInstanceAs (Starless (pure _))

instance : Starless (testTail inner left) := by
  unfold testTail
  infer_instance

instance : Starless (predicateTail inner left) := by
  apply nextOption
  · exact inferInstanceAs (Starless (testTail inner left))
  · intro op
    exact inferInstanceAs (Starless (comparisonTail inner left op))

end Conditions

instance : Starless (predicate inner) := by
  rw [predicate_eq]
  infer_instance

instance : Starless (negation inner) := by
  unfold negation
  infer_instance

instance : Starless (conjunction inner) := inferInstanceAs (Starless (chainLeft _ _ _))

instance : Starless (disjunction inner) := inferInstanceAs (Starless (chainLeft _ _ _))

end Parser.Starless

end QueryNames.Grammar
