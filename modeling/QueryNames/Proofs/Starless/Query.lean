import QueryNames.Proofs.Starless.Expression

/-!
Sources, queries and scripts without stars. Main statement: a star is selected in a script only
where a star stands among its tokens.
-/

namespace QueryNames.Grammar

open Grammar.Parser

set_option synthInstance.maxSize 2048

theorem startsWithQualifiedStar_noStar : ∀ {tokens : List Token},
    (∀ t ∈ tokens, t.kind ≠ .star) → startsWithQualifiedStar tokens = false
  | [], _ | [_], _ | [_, _], _ => rfl
  | name :: period :: t :: rest, bare => by
      have behind : ∀ u ∈ t :: rest, u.kind ≠ .star := fun u member =>
        bare u (List.mem_cons_of_mem _ (List.mem_cons_of_mem _ member))
      have here : (t.kind == .star) = false := beq_eq_false_iff_ne.2 (behind t List.mem_cons_self)
      rw [startsWithQualifiedStar, startsWithQualifiedStar_noStar behind, here]
      simp

namespace Parser.Starless

variable (inner : Level) [h : inner.Starless]

/-! Table sources. -/

instance : Starless (derivedTable inner) := by
  unfold derivedTable
  infer_instance

instance : Starless (parenthesizedSource inner) := by
  unfold parenthesizedSource
  infer_instance

instance : Starless (namedSource inner) := by
  unfold namedSource
  infer_instance

instance : Starless (table inner) := by
  apply next
  intro t
  split <;> infer_instance

instance (kind : JoinKind) : Starless (joinCondition inner kind) := by
  unfold joinCondition
  infer_instance

instance (left : TableSource) [Unstarred left] : Starless (join inner left) := by
  apply nextOption
  · exact inferInstanceAs (Starless (pure _))
  · intro kind
    apply nextOption
    · dsimp only
      infer_instance
    · intro right
      dsimp only
      infer_instance

instance : Starless (tableSource inner) := by
  unfold tableSource
  infer_instance

instance : Starless (sourceList inner) := inferInstanceAs (Starless (commaList _ _))

/-! Clauses. -/

instance : Starless (selectItem inner) := by
  apply looking
  intro c none
  have noStar : (c.current.kind == .star) = false :=
    beq_eq_false_iff_ne.2 (none c.current List.mem_cons_self)
  apply next
  intro following
  rw [if_neg (by simp [noStar])]
  have item : Starless (do
      if ← look fun c => startsWithQualifiedStar c.tokens then qualifiedStar
      else
        let e ← inner.expression
        return .expression e (← columnLabel) : Parser SelectItem) := by
    apply looking
    intro c none
    rw [startsWithQualifiedStar_noStar none]
    exact inferInstanceAs (Starless (inner.expression >>= _))
  infer_instance

instance : Starless (selectList inner) := by
  unfold selectList
  infer_instance

instance : Starless (topQuantity inner) := by
  unfold topQuantity
  infer_instance

instance : Starless (top inner) := by
  unfold top
  infer_instance

instance : Starless (fromClause inner) := by
  unfold fromClause
  infer_instance

instance (k : Keyword) : Starless (expressionClause inner k) := by
  unfold expressionClause
  infer_instance

instance : Starless (groupClause inner) := by
  unfold groupClause
  infer_instance

instance : Starless (orderClause inner) := by
  unfold orderClause
  infer_instance

instance : Starless (selectQuery inner) := by
  unfold selectQuery
  infer_instance

/-! Queries. -/

instance : Starless (queryTerm inner) := by
  unfold queryTerm
  infer_instance

instance : Starless (queryChain inner) := inferInstanceAs (Starless (chainRight _ _ _))

instance : Starless (commonTableQuery inner) := by
  unfold commonTableQuery
  infer_instance

instance : Starless (commonTable inner) := by
  apply nextOption
  · dsimp only
    infer_instance
  · rintro ⟨⟨name, columns⟩, bare⟩
    dsimp only
    infer_instance

instance : Starless (commonTables inner) := by
  unfold commonTables
  infer_instance

instance : Starless (queryStatement inner) := by
  apply next
  intro place
  apply next
  intro tables
  apply nextOption
  · dsimp only
    infer_instance
  · intro query
    dsimp only
    infer_instance

end Parser.Starless

instance starless_level (n : Nat) : (level n).Starless := by
  induction n with
  | zero =>
      exact { stepwise_level 0 with
        barQuery := inferInstanceAs (Parser.Starless (tooDeep _))
        barSource := inferInstanceAs (Parser.Starless (tooDeep _))
        barExpression := inferInstanceAs (Parser.Starless (tooDeep _))
        barNegation := inferInstanceAs (Parser.Starless (tooDeep _))
        barSigned := inferInstanceAs (Parser.Starless (tooDeep _)) }
  | succ n ih =>
      exact { stepwise_level (n + 1) with
        barQuery := inferInstanceAs (Parser.Starless (queryStatement (level n)))
        barSource := inferInstanceAs (Parser.Starless (tableSource (level n)))
        barExpression := inferInstanceAs (Parser.Starless (disjunction (level n)))
        barNegation := inferInstanceAs (Parser.Starless (negation (level n)))
        barSigned := inferInstanceAs (Parser.Starless (signed (level n))) }

namespace Parser.Starless

/-! Scripts. -/

instance : Starless query := by
  unfold query
  infer_instance

instance : Starless statement := by
  unfold statement
  infer_instance

instance : Starless script := inferInstanceAs (Starless (collect _))

end Parser.Starless

end QueryNames.Grammar
