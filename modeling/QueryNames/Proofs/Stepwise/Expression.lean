import QueryNames.Proofs.Stepwise.Rules

/-!
Expressions only move on and complain.
-/

namespace QueryNames.Grammar

open Grammar.Parser

set_option synthInstance.maxSize 512

/-- The parsers of the level inside only move on and complain. -/
class Level.Stepwise (inner : Level) : Prop where
  query : Parser.Stepwise inner.query
  source : Parser.Stepwise inner.source
  expression : Parser.Stepwise inner.expression
  negation : Parser.Stepwise inner.negation
  signed : Parser.Stepwise inner.signed

namespace Parser.Stepwise

variable (inner : Level) [h : inner.Stepwise]

instance : Stepwise inner.query := h.query

instance : Stepwise inner.source := h.source

instance : Stepwise inner.expression := h.expression

instance : Stepwise inner.negation := h.negation

instance : Stepwise inner.signed := h.signed

instance (table : TokenKind → Option ω) : Stepwise (operator? table) := by
  apply next
  intro t
  cases table t.kind <;> infer_instance

/-! Subqueries, lists and windows. -/

instance : Stepwise (subquery inner) := by
  unfold subquery
  infer_instance

instance : Stepwise (expressionList inner) := inferInstanceAs (Stepwise (commaList _ _))

instance : Stepwise (orderItem inner) := by
  unfold orderItem
  infer_instance

instance : Stepwise (orderList inner) := inferInstanceAs (Stepwise (commaList _ _))

instance : Stepwise (argument inner) := by
  unfold argument
  infer_instance

instance : Stepwise (arguments inner) := by
  unfold arguments
  infer_instance

instance : Stepwise (window inner) := by
  unfold window
  infer_instance

instance (name : QualifiedName) : Stepwise (call inner name) := by
  unfold call
  infer_instance

/-! Primary expressions. -/

instance : Stepwise (whenBranch inner) := by
  unfold whenBranch
  infer_instance

instance : Stepwise (caseExpression inner) := by
  unfold caseExpression
  infer_instance

instance : Stepwise (castExpression inner) := by
  unfold castExpression
  infer_instance

instance : Stepwise (convertExpression inner) := by
  unfold convertExpression
  infer_instance

instance : Stepwise (existsExpression inner) := by
  unfold existsExpression
  infer_instance

instance : Stepwise (parenthesized inner) := by
  unfold parenthesized
  infer_instance

instance : Stepwise (columnOrCall inner) := by
  unfold columnOrCall
  infer_instance

instance (t next : Token) : Stepwise (named inner t next) := by
  unfold named
  infer_instance

instance (e : Expression) : Stepwise (leaf e) := by
  unfold leaf
  infer_instance

instance : Stepwise (primary inner) := by
  apply next
  intro t
  apply next
  intro following
  split <;> infer_instance

/-! Operators. -/

instance : Stepwise (signed inner) := by
  apply next
  rintro (_ | op) <;> infer_instance

instance : Stepwise (multiplicative inner) := inferInstanceAs (Stepwise (chainLeft _ _ _))

instance : Stepwise (additive inner) := inferInstanceAs (Stepwise (chainLeft _ _ _))

instance (quantified : Bool) : Stepwise (quantifiedOperand inner quantified) := by
  unfold quantifiedOperand
  infer_instance

instance : Stepwise (comparand inner) := by
  rw [comparand_eq]
  infer_instance

instance (left : Expression) (negated : Bool) : Stepwise (memberQuery inner left negated) := by
  apply next
  rintro (_ | query) <;> infer_instance

instance (left : Expression) (negated : Bool) : Stepwise (membership inner left negated) := by
  rw [membership_eq]
  infer_instance

instance (left : Expression) (negated : Bool) : Stepwise (range inner left negated) := by
  apply next
  rintro (_ | bounds) <;> infer_instance

instance (left : Expression) (negated : Bool) : Stepwise (pattern inner left negated) := by
  apply next
  rintro (_ | pattern) <;> infer_instance

instance (left : Expression) : Stepwise (nullTest left) := by
  unfold nullTest
  infer_instance

instance (left : Expression) : Stepwise (condition inner left) := by
  unfold condition
  infer_instance

instance (left : Expression) (op : BinaryOperator) : Stepwise (comparisonTail inner left op) := by
  apply next
  rintro (_ | right) <;> infer_instance

instance (left : Expression) : Stepwise (testTail inner left) := by
  unfold testTail
  infer_instance

instance (left : Expression) : Stepwise (predicateTail inner left) := by
  rw [predicateTail_eq]
  apply next
  rintro (_ | op) <;> infer_instance

instance : Stepwise (predicate inner) := by
  rw [predicate_eq]
  infer_instance

instance : Stepwise (negation inner) := by
  unfold negation
  infer_instance

instance : Stepwise (conjunction inner) := inferInstanceAs (Stepwise (chainLeft _ _ _))

instance : Stepwise (disjunction inner) := inferInstanceAs (Stepwise (chainLeft _ _ _))

end Parser.Stepwise

end QueryNames.Grammar
