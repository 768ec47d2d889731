import QueryNames.Proofs.Blame.Rules

/-!
Every production answers for giving up. Main statements: so does every level of nesting, and each
production there.
-/

namespace QueryNames.Grammar

open Grammar.Parser

set_option synthInstance.maxSize 1024

/-- The parsers of the level inside answer for giving up. -/
class Level.Answers (inner : Level) : Prop where
  query : Parser.Answers inner.query
  source : Parser.Answers inner.source
  expression : Parser.Answers inner.expression
  negation : Parser.Answers inner.negation
  signed : Parser.Answers inner.signed

namespace Parser.Answers

/-! Names and data types. -/

instance (expected : Expected) : Answers (requireIdentifier expected) :=
  instead identifier _

instance : Answers qualifiedName := by
  rw [qualifiedName_eq]
  infer_instance

instance : Answers dataType := by
  unfold dataType
  infer_instance

variable (inner : Level) [inner.Stepwise] [h : inner.Answers]

instance : Answers inner.query := h.query

instance : Answers inner.source := h.source

instance : Answers inner.expression := h.expression

instance : Answers inner.negation := h.negation

instance : Answers inner.signed := h.signed

/-! Subqueries, lists and windows. -/

instance : Answers (subquery inner) := by
  unfold subquery
  infer_instance

instance : Answers (orderItem inner) := by
  unfold orderItem
  infer_instance

instance : Answers (argument inner) := by
  unfold argument
  infer_instance

instance : Answers (window inner) := by
  unfold window
  infer_instance

instance (name : QualifiedName) : Answers (call inner name) := by
  unfold call
  infer_instance

/-! Primary expressions. -/

instance : Answers (whenBranch inner) := by
  unfold whenBranch
  infer_instance

instance : Answers (caseExpression inner) := by
  unfold caseExpression
  infer_instance

instance : Answers (castExpression inner) := by
  unfold castExpression
  infer_instance

instance : Answers (convertExpression inner) := by
  unfold convertExpression
  infer_instance

instance : Answers (existsExpression inner) := by
  unfold existsExpression
  infer_instance

instance : Answers (parenthesized inner) := by
  unfold parenthesized
  infer_instance

instance : Answers (columnOrCall inner) := by
  unfold columnOrCall
  infer_instance

instance (t next : Token) : Answers (named inner t next) := by
  unfold named
  infer_instance

instance (e : Expression) : Answers (leaf e) := by
  unfold leaf
  infer_instance

instance : Answers (primary inner) := by
  apply next
  intro t
  apply next
  intro following
  split <;> infer_instance

/-! Operators. -/

instance : Answers (signed inner) := by
  apply next
  rintro (_ | op) <;> infer_instance

instance : Answers (multiplicative inner) := inferInstanceAs (Answers (chainLeft _ _ _))

instance : Answers (additive inner) := inferInstanceAs (Answers (chainLeft _ _ _))

instance : Answers (comparand inner) := by
  unfold comparand
  infer_instance

instance (left : Expression) (negated : Bool) : Answers (membership inner left negated) := by
  unfold membership
  infer_instance

instance (left : Expression) (negated : Bool) : Answers (range inner left negated) := by
  unfold range
  infer_instance

instance (left : Expression) (negated : Bool) : Answers (pattern inner left negated) := by
  unfold pattern
  infer_instance

instance (left : Expression) : Answers (nullTest left) := by
  unfold nullTest
  infer_instance

instance (left : Expression) : Answers (condition inner left) := by
  unfold condition
  infer_instance

instance (left : Expression) : Answers (testTail inner left) := by
  unfold testTail
  infer_instance

instance (left : Expression) : Answers (predicateTail inner left) := by
  apply next
  rintro (_ | op) <;> infer_instance

instance : Answers (predicate inner) := by
  rw [predicate_eq]
  infer_instance

instance : Answers (negation inner) := by
  unfold negation
  infer_instance

instance : Answers (conjunction inner) := inferInstanceAs (Answers (chainLeft _ _ _))

instance : Answers (disjunction inner) := inferInstanceAs (Answers (chainLeft _ _ _))

/-! Table sources. -/

instance : Answers (derivedTable inner) := by
  unfold derivedTable
  infer_instance

instance : Answers (parenthesizedSource inner) := by
  unfold parenthesizedSource
  infer_instance

instance : Answers skipHints := by
  unfold skipHints
  infer_instance

instance : Answers (namedSource inner) := by
  unfold namedSource
  infer_instance

instance : Answers (table inner) := by
  apply next
  intro t
  split <;> infer_instance

instance : Answers joinOperator? := by
  apply next
  intro t
  apply next
  intro following
  cases joinKind? t following <;> infer_instance

instance (kind : JoinKind) : Answers (joinCondition inner kind) := by
  unfold joinCondition
  infer_instance

instance (left : TableSource) : Answers (join inner left) := by
  apply next
  rintro (_ | kind) <;> infer_instance

instance : Answers (tableSource inner) := by
  unfold tableSource
  infer_instance

/-! Queries. -/

instance : Answers (selectItem inner) := by
  unfold selectItem
  infer_instance

instance : Answers (topQuantity inner) := by
  unfold topQuantity
  infer_instance

instance : Answers (top inner) := by
  unfold top
  infer_instance

instance : Answers (queryTerm inner) := by
  unfold queryTerm
  infer_instance

instance : Answers (queryChain inner) := inferInstanceAs (Answers (chainRight _ _ _))

instance : Answers commonTableHead := by
  unfold commonTableHead
  infer_instance

instance : Answers (commonTableQuery inner) := by
  unfold commonTableQuery
  infer_instance

instance : Answers (commonTable inner) := by
  unfold commonTable
  infer_instance

instance : Answers (commonTables inner) := by
  unfold commonTables
  infer_instance

instance : Answers (queryStatement inner) := by
  unfold queryStatement
  infer_instance

end Parser.Answers

/-- At every level of nesting. -/
instance answers_level (n : Nat) : (level n).Answers := by
  induction n with
  | zero => constructor <;> exact inferInstanceAs (Parser.Answers (tooDeep _))
  | succ n ih =>
      exact ⟨inferInstanceAs (Parser.Answers (queryStatement (level n))),
        inferInstanceAs (Parser.Answers (tableSource (level n))),
        inferInstanceAs (Parser.Answers (disjunction (level n))),
        inferInstanceAs (Parser.Answers (negation (level n))),
        inferInstanceAs (Parser.Answers (signed (level n)))⟩

/-- What can be read at some level of nesting, or found not to be there. -/
inductive Production : {α : Type} → Parser α → Prop where
  -- Queries
  | query (n : Nat) : Production (level n).query
  | queryChain (n : Nat) : Production (queryChain (level n))
  | queryTerm (n : Nat) : Production (queryTerm (level n))
  | commonTableHead : Production commonTableHead
  | commonTableQuery (n : Nat) : Production (commonTableQuery (level n))
  | top (n : Nat) : Production (top (level n))
  | topQuantity (n : Nat) : Production (topQuantity (level n))
  | selectItem (n : Nat) : Production (selectItem (level n))
  | orderItem (n : Nat) : Production (orderItem (level n))
  -- Table sources
  | source (n : Nat) : Production (level n).source
  | table (n : Nat) : Production (table (level n))
  | derivedTable (n : Nat) : Production (derivedTable (level n))
  | parenthesizedSource (n : Nat) : Production (parenthesizedSource (level n))
  | namedSource (n : Nat) : Production (namedSource (level n))
  -- Names
  | identifier (expected : Expected) : Production (requireIdentifier expected)
  | qualifiedName : Production qualifiedName
  | dataType : Production dataType
  -- Expressions
  | expression (n : Nat) : Production (level n).expression
  | conjunction (n : Nat) : Production (conjunction (level n))
  | negation (n : Nat) : Production (level n).negation
  | predicate (n : Nat) : Production (predicate (level n))
  | comparand (n : Nat) : Production (comparand (level n))
  | additive (n : Nat) : Production (additive (level n))
  | multiplicative (n : Nat) : Production (multiplicative (level n))
  | signed (n : Nat) : Production (level n).signed
  | primary (n : Nat) : Production (primary (level n))
  | columnOrCall (n : Nat) : Production (columnOrCall (level n))
  | argument (n : Nat) : Production (argument (level n))
  | window (n : Nat) : Production (window (level n))
  | subquery (n : Nat) : Production (subquery (level n))
  | exists (n : Nat) : Production (existsExpression (level n))
  | parenthesized (n : Nat) : Production (parenthesized (level n))
  | case (n : Nat) : Production (caseExpression (level n))
  | cast (n : Nat) : Production (castExpression (level n))
  | convert (n : Nat) : Production (convertExpression (level n))

namespace Production

variable {α : Type} {p : Parser α}

theorem answers (production : Production p) : Answers p := by
  cases production <;> infer_instance

end Production

end QueryNames.Grammar
