import QueryNames.Proofs.Grammar.Total
import QueryNames.Proofs.Stepwise.Expression

/-!
Sources, queries and scripts only move on and complain.
-/

namespace QueryNames.Grammar

open Grammar.Parser

set_option synthInstance.maxSize 512

namespace Parser.Stepwise

instance : Stepwise explicitLabel := by
  apply next
  rintro (_ | label) <;> infer_instance

instance : Stepwise tableLabel := by
  rw [tableLabel_eq]
  infer_instance

instance : Stepwise skipHints := by
  unfold skipHints
  infer_instance

instance : Stepwise joinOperator? := by
  apply next
  intro t
  apply next
  intro following
  cases joinKind? t following <;> infer_instance

instance : Stepwise intoClause := by
  unfold intoClause
  infer_instance

instance : Stepwise skipOptions := by
  unfold skipOptions
  infer_instance

instance : Stepwise setOperator? := by
  unfold setOperator?
  infer_instance

instance : Stepwise columnLabel := by
  apply next
  intro explicit
  apply next
  intro t
  split <;> infer_instance

instance : Stepwise starPart := by
  apply next
  rintro (_ | part) <;> infer_instance

instance : Stepwise qualifiedStar := by
  rw [qualifiedStar_eq]
  infer_instance

instance : Stepwise commonTableHead := by
  unfold commonTableHead
  infer_instance

variable (inner : Level) [h : inner.Stepwise]

/-! Table sources. -/

instance : Stepwise (derivedTable inner) := by
  unfold derivedTable
  infer_instance

instance : Stepwise (parenthesizedSource inner) := by
  unfold parenthesizedSource
  infer_instance

instance : Stepwise (namedSource inner) := by
  unfold namedSource
  infer_instance

instance : Stepwise (table inner) := by
  apply next
  intro t
  split <;> infer_instance

instance (kind : JoinKind) : Stepwise (joinCondition inner kind) := by
  unfold joinCondition
  infer_instance

instance : Stepwise (skipJoin inner) := by
  unfold skipJoin
  infer_instance

instance (left : TableSource) : Stepwise (join inner left) := by
  apply next
  rintro (_ | kind)
  · infer_instance
  · apply next
    rintro (_ | right) <;> infer_instance

instance : Stepwise (tableSource inner) := by
  unfold tableSource
  infer_instance

instance : Stepwise (sourceList inner) := inferInstanceAs (Stepwise (commaList _ _))

/-! Clauses. -/

instance : Stepwise (selectItem inner) := by
  unfold selectItem
  infer_instance

instance : Stepwise (selectList inner) := by
  unfold selectList
  infer_instance

instance : Stepwise (topQuantity inner) := by
  unfold topQuantity
  infer_instance

instance (quantity : Expression) (percent : Bool) : Stepwise (tiesTail quantity percent) := by
  unfold tiesTail
  infer_instance

instance : Stepwise (top inner) := by
  rw [top_eq]
  infer_instance

instance : Stepwise (fromClause inner) := by
  unfold fromClause
  infer_instance

instance (k : Keyword) : Stepwise (expressionClause inner k) := by
  unfold expressionClause
  infer_instance

instance : Stepwise (groupClause inner) := by
  unfold groupClause
  infer_instance

instance : Stepwise (orderClause inner) := by
  unfold orderClause
  infer_instance

instance : Stepwise (selectQuery inner) := by
  unfold selectQuery
  infer_instance

/-! Queries. -/

instance : Stepwise (queryTerm inner) := by
  unfold queryTerm
  infer_instance

instance : Stepwise (queryChain inner) := inferInstanceAs (Stepwise (chainRight _ _ _))

instance : Stepwise (commonTableQuery inner) := by
  unfold commonTableQuery
  infer_instance

instance : Stepwise (commonTable inner) := by
  apply next
  rintro (_ | ⟨name, columns⟩) <;> infer_instance

instance : Stepwise (commonTables inner) := by
  unfold commonTables
  infer_instance

instance (location : Location) (tables : List CommonTable) (query? : Option Query) :
    Stepwise (withTables location tables query?) := by
  unfold withTables
  cases query? <;> infer_instance

instance : Stepwise (queryStatement inner) := by
  rw [queryStatement_eq]
  infer_instance

end Parser.Stepwise

/-- At every level of nesting. -/
instance stepwise_level (n : Nat) : (level n).Stepwise := by
  induction n with
  | zero => constructor <;> exact inferInstanceAs (Parser.Stepwise (tooDeep _))
  | succ n ih =>
      exact ⟨inferInstanceAs (Parser.Stepwise (queryStatement (level n))),
        inferInstanceAs (Parser.Stepwise (tableSource (level n))),
        inferInstanceAs (Parser.Stepwise (disjunction (level n))),
        inferInstanceAs (Parser.Stepwise (negation (level n))),
        inferInstanceAs (Parser.Stepwise (signed (level n)))⟩

namespace Parser.Stepwise

/-! Scripts. -/

instance : Stepwise atStatementEnd := inferInstanceAs (Stepwise (look _))

instance : Stepwise skipStatement := by
  unfold skipStatement
  infer_instance

instance : Stepwise finishStatement := by
  unfold finishStatement
  infer_instance

instance : Stepwise query := by
  unfold query
  infer_instance

instance : Stepwise reportOtherStatement := by
  apply next
  intro t
  split <;> infer_instance

instance : Stepwise otherStatement := by
  unfold otherStatement
  infer_instance

instance : Stepwise statement := by
  unfold statement
  infer_instance

instance : Stepwise script := inferInstanceAs (Stepwise (collect _))

end Parser.Stepwise

end QueryNames.Grammar
