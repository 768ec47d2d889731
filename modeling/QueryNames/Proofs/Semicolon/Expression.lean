import QueryNames.Proofs.Parallel.Expression
import QueryNames.Proofs.Semicolon.Rules

/-!
Expressions are read alike before the end of input and before a semicolon.
-/

namespace QueryNames.Grammar

open Grammar.Parser

set_option synthInstance.maxSize 512

variable {edge : Edge}

/-- The parsers of the level inside are read alike; a query is never begun at the edge. -/
class Level.Follows (edge : Edge) (inner : Level) : Prop where
  query : Parser.Follows edge 1 inner.query
  source : Parser.Follows edge 0 inner.source
  expression : Parser.Follows edge 0 inner.expression
  negation : Parser.Follows edge 0 inner.negation
  signed : Parser.Follows edge 0 inner.signed

namespace Parser.Follows

/-! Data types. -/

/-- The arguments of a type end at the parenthesis, or at the end of the shorter list only. -/
theorem collect_typeArgument {c d : Cursor} (abreast : Abreast edge c d) :
    ∃ parts c', collect typeArgument ⟨c, []⟩ = (some parts, ⟨c', []⟩) ∧
      (c' = edge.left ∨ ∃ d', collect typeArgument ⟨d, []⟩ = (some parts, ⟨d', []⟩) ∧
        Abreast edge c' d') := by
  induction length : c.remaining using Nat.strongRecOn generalizing c d with
  | ind n ih =>
      rcases abreast.view with ⟨rfl, rfl⟩ | ⟨t, c', d', goesOn, rfl, rfl, rest⟩
      · exact ⟨[], edge.left, collect_typeArgument_stop rfl, .inl rfl⟩
      · cases ends : (t.isEnd || t.isPunctuation .rightParen) with
        | true =>
            exact ⟨[], _, collect_typeArgument_stop ends,
              .inr ⟨_, collect_typeArgument_stop ends, abreast⟩⟩
        | false =>
            have shorter : c'.remaining < n := by
              simp only [Cursor.remaining, Cursor.tokens, List.length_cons] at length ⊢
              omega
            obtain ⟨parts, c'', run, stops⟩ := ih _ shorter rest rfl
            have whole := collect_typeArgument_step (c := ⟨t, c'.tokens⟩) rfl ends run
            apply Exists.intro _
            apply Exists.intro c''
            apply And.intro whole
            apply stops.imp_right
            rintro ⟨d'', run', abreast'⟩
            exact ⟨d'', collect_typeArgument_step (c := ⟨t, d'.tokens⟩) rfl ends run', abreast'⟩

/-- Where they end at the edge they are not closed. -/
instance typeArguments (f : String → Unit → Parser α)
    [rest : ∀ arguments u, Follows edge 0 (f arguments u)] :
    Follows edge 0 (typeArguments >>= fun arguments => closeParen >>= f arguments) where
  advances := typeArguments_advances.bind fun arguments =>
    closeParen_advances.bind fun u => (rest arguments u).advances
  runs {c d} abreast _ := by
    have found {e e' : Cursor} {parts : List String}
        (run : collect typeArgument ⟨e, []⟩ = (some parts, ⟨e', []⟩)) :
        Parser.typeArguments ⟨e, []⟩ = (some (String.join parts), ⟨e', []⟩) := by
      rw [Parser.typeArguments, bind_apply, run]
      rfl
    obtain ⟨parts, c', run, rfl | ⟨d', run', abreast'⟩⟩ := collect_typeArgument abreast
    · have missed : Complained (closeParen ⟨edge.left, []⟩).2 := closeParen_complains.ends rfl
      rw [bind_apply, found run]
      exact .inl (missed.onward (bind_onward (fun u => (rest _ u).advances) _))
    · have closing : Follows edge 0 (closeParen >>= f (String.join parts)) := inferInstance
      have tail := closing.runs abreast' (.zero c')
      simp only [Alike]
      rw [bind_apply, bind_apply, found run, found run']
      exact tail

instance : Follows edge 0 dataType := by
  unfold dataType
  infer_instance

theorem operator {table : TokenKind → Option ω} (left : table .endOfInput = none)
    (right : table (.punctuation .semicolon) = none) : Follows edge 0 (operator? table) := by
  apply atEdge (pure none)
  · simp [operator?, bind_apply, Parser.current, look, Edge.left, Token.endOfInput, left]
  · simp [operator?, bind_apply, Parser.current, look, Edge.right, right]
  · apply token
    intro t
    cases table t.kind <;> infer_instance

instance : Follows edge 0 (operator? sign?) := operator rfl rfl

instance : Follows edge 0 (operator? multiplicative?) := operator rfl rfl

instance : Follows edge 0 (operator? additive?) := operator rfl rfl

instance : Follows edge 0 (operator? comparison?) := operator rfl rfl

instance : Follows edge 0 (operator? conjunction?) := operator rfl rfl

instance : Follows edge 0 (operator? disjunction?) := operator rfl rfl

instance (e : Expression) : Follows edge 1 (leaf e) := by
  unfold leaf
  infer_instance

instance (left : Expression) : Follows edge 0 (nullTest left) := by
  unfold nullTest
  infer_instance

variable (inner : Level) [h : inner.Follows edge]

instance : Follows edge 1 inner.query := h.query

instance : Follows edge 0 inner.source := h.source

instance : Follows edge 0 inner.expression := h.expression

instance : Follows edge 0 inner.negation := h.negation

instance : Follows edge 0 inner.signed := h.signed

/-! Subqueries, lists and windows. -/

instance : Follows edge 0 (subquery inner) := by
  unfold subquery
  infer_instance

instance : Follows edge 0 (expressionList inner) := inferInstanceAs (Follows edge 0 (commaList _ _))

instance : Follows edge 0 (orderItem inner) := by
  unfold orderItem
  infer_instance

instance : Follows edge 0 (orderList inner) := inferInstanceAs (Follows edge 0 (commaList _ _))

instance : Follows edge 0 (argument inner) := by
  apply atEdge inner.expression
  · rfl
  · rfl
  · unfold argument
    infer_instance

instance : Follows edge 0 (arguments inner) := by
  unfold arguments
  infer_instance

instance : Follows edge 0 (window inner) := by
  unfold window
  infer_instance

instance (name : QualifiedName) : Follows edge 1 (call inner name) := by
  unfold call
  infer_instance

/-! Primary expressions. -/

instance : Follows edge 0 (whenBranch inner) := by
  unfold whenBranch
  infer_instance

instance : Follows edge 1 (caseExpression inner) := by
  unfold caseExpression
  infer_instance

instance : Follows edge 2 (castExpression inner) := by
  unfold castExpression
  infer_instance

instance : Follows edge 1 (convertExpression inner) := by
  unfold convertExpression
  infer_instance

instance : Follows edge 1 (existsExpression inner) := by
  unfold existsExpression
  infer_instance

instance : Follows edge 1 (parenthesized inner) := by
  unfold parenthesized
  infer_instance

instance : Follows edge 1 (columnOrCall inner) := by
  unfold columnOrCall
  infer_instance

instance (t next : Token) : Follows edge 2 (named inner t next) := by
  unfold named
  infer_instance

/-- Nothing is called by what stands at the edge. -/
theorem named_edge (t : Token) : Follows edge 1 (named inner t edge.left.current) := by
  have same : named inner t edge.left.current =
      if (t.isPlainName && niladicFunctions.any t.isWord) = true then do
        Parser.advance
        return .niladic t.text
      else columnOrCall inner := by
    have noParen : edge.left.current.isPunctuation .leftParen = false := rfl
    have noPeriod : edge.left.current.isPunctuation .period = false := rfl
    simp [named, noParen, noPeriod]
  rw [same]
  infer_instance

instance : Follows edge 0 (primary inner) := by
  apply atEdge (missing .expression)
  · rfl
  · rfl
  · apply token
    intro t
    apply peek
    · rfl
    · split <;> first
        | infer_instance
        | exact named_edge inner t
        | exact inferInstanceAs (Follows edge 1 (missing .expression))
    · intro following
      split <;> infer_instance

/-! Operators. -/

instance : Follows edge 0 (signed inner) := by
  apply next
  intro op?
  cases op? <;> infer_instance

instance : Follows edge 0 (multiplicative inner) :=
  inferInstanceAs (Follows edge 0 (chainLeft _ _ _))

instance : Follows edge 0 (additive inner) := inferInstanceAs (Follows edge 0 (chainLeft _ _ _))

instance : Follows edge 1 (quantifiedOperand inner true) := by
  apply peek
  · rfl
  · infer_instance
  · infer_instance

instance : Follows edge 0 (quantifiedOperand inner false) :=
  inferInstanceAs (Follows edge 0 (additive inner))

instance : Follows edge 0 (comparand inner) := by
  rw [comparand_eq]
  infer_instance

instance (left : Expression) (negated : Bool) :
    Follows edge 2 (memberQuery inner left negated) := by
  apply next
  intro query?
  cases query? <;> infer_instance

instance (left : Expression) (negated : Bool) :
    Follows edge 0 (membership inner left negated) := by
  rw [membership_eq]
  infer_instance

instance (left : Expression) (negated : Bool) : Follows edge 0 (range inner left negated) := by
  apply next
  intro bounds?
  cases bounds? <;> infer_instance

instance (left : Expression) (negated : Bool) : Follows edge 0 (pattern inner left negated) := by
  apply next
  intro pattern?
  cases pattern? <;> infer_instance

instance (left : Expression) : Follows edge 0 (condition inner left) := by
  apply atEdge (pure left)
  · rfl
  · rfl
  · apply peek
    · rfl
    · infer_instance
    · infer_instance

instance (left : Expression) (op : BinaryOperator) :
    Follows edge 0 (comparisonTail inner left op) := by
  apply next
  intro right?
  cases right? <;> infer_instance

instance (left : Expression) : Follows edge 0 (testTail inner left) := by
  unfold testTail
  infer_instance

instance (left : Expression) : Follows edge 0 (predicateTail inner left) := by
  rw [predicateTail_eq]
  apply next
  intro op?
  cases op? <;> infer_instance

instance : Follows edge 0 (predicate inner) := by
  rw [predicate_eq]
  infer_instance

instance : Follows edge 0 (negation inner) := by
  unfold negation
  infer_instance

instance : Follows edge 0 (conjunction inner) :=
  inferInstanceAs (Follows edge 0 (chainLeft _ _ _))

instance : Follows edge 0 (disjunction inner) :=
  inferInstanceAs (Follows edge 0 (chainLeft _ _ _))

end Parser.Follows

end QueryNames.Grammar
