import QueryNames.Proofs.Announced.Name

/-!
Expressions read no announced name: they begin and end at tokens that were not announced.
-/

namespace QueryNames.Grammar

open Grammar.Parser

variable {all : List Token}

/-! What an expression names is what its parts name. -/

section Spared

variable (e left right : Expression) (e? : Option Expression) (list : List Expression)
  (query : Query) [operand : Spared all e] [first : Spared all left] [second : Spared all right]
  [maybe : Spared all e?] [listed : Spared all list] [inner : Spared all query]

instance (name : QualifiedName) [spared : Spared all name] (kind : ColumnKind)
    (location : Location) : Spared all (Expression.column ⟨some name, kind, location⟩) where
  each := by
    simpa [names, Expression.outline, Column.outline, Node.mentions] using spared.each

instance (kind : ColumnKind) (location : Location) :
    Spared all (Expression.column ⟨none, kind, location⟩) where
  each := by simp [names, Expression.outline, Column.outline, Node.mentions]

instance (value : Literal) : Spared all (Expression.literal value) where
  each := by simp [names, Expression.outline, Node.mentions]

instance (name : String) : Spared all (Expression.variable name) where
  each := by simp [names, Expression.outline, Node.mentions]

instance (name : String) : Spared all (Expression.niladic name) where
  each := by simp [names, Expression.outline, Node.mentions]

instance (op : UnaryOperator) : Spared all (Expression.unary op e) where
  each := by simpa [names, Expression.outline, Node.mentions] using operand.each

instance (op : BinaryOperator) : Spared all (Expression.binary op left right) where
  each := by
    have both := And.intro first.each second.each
    simpa [names, Expression.outline, Node.mentions, or_imp, forall_and] using both

instance (partitionBy : List Expression) (orderBy : List OrderItem)
    [left : Spared all partitionBy] [right : Spared all orderBy] :
    Spared all (⟨partitionBy, orderBy⟩ : Window) where
  each := by simpa [names, or_imp, forall_and] using And.intro left.each right.each

instance (name : QualifiedName) (distinct : Bool) (window? : Option Window)
    [windowed : Spared all window?] :
    Spared all (Expression.function name list distinct window?) where
  each := by
    have both := And.intro listed.each windowed.each
    cases window? <;>
      simpa [names, Expression.outline, Node.mentions, List.flatMap_map, or_imp, forall_and]
        using both

instance : Spared all (⟨left, right⟩ : WhenBranch) where
  each := by simpa [names, or_imp, forall_and] using And.intro first.each second.each

instance (branches : List WhenBranch) (otherwise : Option Expression)
    [cases : Spared all branches] [last : Spared all otherwise] :
    Spared all (Expression.case e? branches otherwise) where
  each := by
    have all_ := And.intro maybe.each (And.intro cases.each last.each)
    rcases e? with _ | e <;> rcases otherwise with _ | otherwise <;>
      simpa [names, Expression.outline, Node.mentions, List.flatMap_assoc, or_imp, forall_and]
        using all_

instance (type : String) : Spared all (Expression.cast e type e?) where
  each := by
    have both := And.intro operand.each maybe.each
    cases e? <;>
      simpa [names, Expression.outline, Node.mentions, or_imp, forall_and] using both

instance : Spared all (Expression.subquery query) where
  each := by simpa [names, Expression.outline, Node.mentions] using inner.each

instance : Spared all (Expression.exists query) where
  each := by simpa [names, Expression.outline, Node.mentions] using inner.each

instance (negated : Bool) : Spared all (Expression.inList e list negated) where
  each := by
    have both := And.intro operand.each listed.each
    simpa [names, Expression.outline, Node.mentions, List.flatMap_map, or_imp, forall_and]
      using both

instance (negated : Bool) : Spared all (Expression.inSubquery e query negated) where
  each := by
    have both := And.intro operand.each inner.each
    simpa [names, Expression.outline, Node.mentions, or_imp, forall_and] using both

instance (negated : Bool) : Spared all (Expression.between e left right negated) where
  each := by
    have all_ := And.intro operand.each (And.intro first.each second.each)
    simpa [names, Expression.outline, Node.mentions, or_imp, forall_and] using all_

instance (negated : Bool) : Spared all (Expression.like e left e? negated) where
  each := by
    have all_ := And.intro operand.each (And.intro first.each maybe.each)
    cases e? <;>
      simpa [names, Expression.outline, Node.mentions, or_imp, forall_and] using all_

instance (negated : Bool) : Spared all (Expression.isNull e negated) where
  each := by simpa [names, Expression.outline, Node.mentions] using operand.each

instance : Spared all (Expression.nested e) where
  each := by simpa [names, Expression.outline, Node.mentions] using operand.each

instance (ascending : Option Bool) : Spared all (⟨e, ascending⟩ : OrderItem) where
  each := by simpa [names, OrderItem.outline, Node.mentions] using operand.each

end Spared

set_option synthInstance.maxSize 1024

/-- The parsers of the level inside begin at tokens that were not announced and read no other
name. -/
class Level.Spares (all : List Token) (inner : Level) : Prop where
  query : Parser.Spares all [] .free .free inner.query
  source : Parser.Spares all [] .free .anywhere inner.source
  expression : Parser.Spares all [] .free .free inner.expression
  negation : Parser.Spares all [] .free .free inner.negation
  signed : Parser.Spares all [] .free .free inner.signed

namespace Parser.Spares

theorem operator [Naming ω] [Nameless ω] {table : TokenKind → Option ω}
    (ends : table .endOfInput = none) (as : table (.keyword .as) = none)
    (into : table (.keyword .into) = none) : Spares all [] .free .free (operator? table) := by
  apply token
  intro t
  cases found : table t.kind with
  | none => infer_instance
  | some op =>
      have : Silent t := by
        constructor
        · cases word : t.announces with
          | false => rfl
          | true => rcases Token.announces_eq_true.1 word with kind | kind <;> simp_all
        · cases stop : t.isEnd with
          | false => rfl
          | true => simp_all [Token.isEnd]
      dsimp only
      infer_instance

instance : Spares all [] .free .free (operator? sign?) := operator rfl rfl rfl

instance : Spares all [] .free .free (operator? multiplicative?) := operator rfl rfl rfl

instance : Spares all [] .free .free (operator? additive?) := operator rfl rfl rfl

instance : Spares all [] .free .free (operator? comparison?) := operator rfl rfl rfl

instance : Spares all [] .free .free (operator? conjunction?) := operator rfl rfl rfl

instance : Spares all [] .free .free (operator? disjunction?) := operator rfl rfl rfl

instance (t : Token) [Silent t] (e : Expression) [Spared all e] :
    Spares all [t] .free .free (leaf e) := by
  unfold leaf
  infer_instance

instance (left : Expression) [Spared all left] : Spares all [] .free .free (nullTest left) := by
  unfold nullTest
  infer_instance

variable (inner : Level) [h : inner.Spares all]

instance : Spares all [] .free .free inner.query := h.query

instance : Spares all [] .free .anywhere inner.source := h.source

instance : Spares all [] .free .free inner.expression := h.expression

instance : Spares all [] .free .free inner.negation := h.negation

instance : Spares all [] .free .free inner.signed := h.signed

/-! Subqueries, lists and windows. -/

instance : Spares all [] .free .free (subquery inner) := by
  unfold subquery
  infer_instance

instance : Spares all [] .free .free (expressionList inner) :=
  inferInstanceAs (Spares all [] .free .free (commaList _ _))

instance : Spares all [] .free .free (orderItem inner) := by
  unfold orderItem
  infer_instance

/-- The order may end at a word that is a name elsewhere. -/
instance : Spares all [] .free .anywhere (orderList inner) := by
  apply collecting
  have item : Spares all [] .free .free (orderItem inner) := inferInstance
  refine Triple.bind (Q := fun item? s => Spared all item? ∧ Among all s.cursor) ?_ fun item? => ?_
  · refine .attempt (item.behind.weaken (fun _ => id) (fun _ _ found => ?_) fun _ free => ?_)
    · have := found.1
      exact ⟨inferInstance, found.2.among⟩
    · exact ⟨inferInstance, Free.among free⟩
  · rintro s ⟨spared, among⟩
    exact ((finishItem_among endsOrderItem item?.isSome).bind fun _ =>
      .pure fun _ ends => ⟨spared, ends⟩) s among

instance : Spares all [] .free .free (argument inner) := by
  apply token
  intro t
  by_cases star : (t.kind == .star) = true
  · have is : t.kind = .star := by simpa using star
    have : Silent t := .of_kind is rfl (by decide)
    infer_instance
  · rw [if_neg star]
    infer_instance

instance : Spares all [] .free .free (arguments inner) := by
  unfold arguments
  infer_instance

instance : Spares all [] .free .free (window inner) := by
  unfold window
  infer_instance

instance (t : Token) [Silent t] (name : QualifiedName) :
    Spares all [t] .free .free (call inner name) := by
  unfold call
  infer_instance

/-! Primary expressions. -/

instance : Spares all [] .free .free (whenBranch inner) := by
  unfold whenBranch
  infer_instance

instance (t : Token) [Silent t] : Spares all [t] .free .free (caseExpression inner) := by
  unfold caseExpression
  infer_instance

instance (t u : Token) [Silent t] [Silent u] :
    Spares all [t, u] .free .free (castExpression inner) := by
  unfold castExpression
  infer_instance

instance (t : Token) [Silent t] : Spares all [t] .free .free (convertExpression inner) := by
  unfold convertExpression
  infer_instance

instance (t : Token) [Silent t] : Spares all [t] .free .free (existsExpression inner) := by
  unfold existsExpression
  infer_instance

instance (t : Token) [Silent t] : Spares all [t] .free .free (parenthesized inner) := by
  unfold parenthesized
  infer_instance

instance : Spares all [] .free .free (columnOrCall inner) := by
  unfold columnOrCall
  infer_instance

/-- A name is told by the token behind it. -/
theorem named_spares {t : Token} (isName : t.kind = .identifier) (next : Token) :
    Spares all [t, next] .free .free (named inner t next) := by
  have : Silent t := .of_kind isName rfl (by decide)
  unfold named
  dsimp only
  split
  · rename_i called
    simp only [Bool.and_eq_true] at called
    have : Silent next := silent_of_opening called.1.2
    infer_instance
  · infer_instance

instance : Spares all [] .free .free (primary inner) := by
  apply token
  intro t
  apply following
  intro u
  have called (name : QualifiedName) : Silent t →
      Spares all [t, u] .free .free (if u.isPunctuation .leftParen then do
        Parser.advance
        call inner name
      else missing .expression) := by
    intro _
    split
    · have : Silent u := silent_of_opening ‹_›
      infer_instance
    · infer_instance
  have silent {k : TokenKind} (is : t.kind = k) (silent : k.announces = false)
      (goesOn : k ≠ .endOfInput) : Silent t := .of_kind is silent goesOn
  split
  · rename_i is
    have := silent is rfl (by decide)
    infer_instance
  · rename_i is
    have := silent is rfl (by decide)
    infer_instance
  · rename_i is
    have := silent is rfl (by decide)
    infer_instance
  · rename_i is
    have := silent is rfl (by decide)
    infer_instance
  · rename_i is
    have := silent is rfl (by decide)
    infer_instance
  · rename_i is
    have := silent is rfl (by decide)
    infer_instance
  · rename_i is
    have := silent is rfl (by decide)
    infer_instance
  · rename_i is
    exact called _ (silent is rfl (by decide))
  · rename_i is
    exact called _ (silent is rfl (by decide))
  · rename_i is
    have := silent is rfl (by decide)
    infer_instance
  · rename_i is
    exact named_spares inner is u
  · infer_instance

/-! Operators. -/

instance : Spares all [] .free .free (signed inner) := by
  apply next
  intro op? _
  cases op? <;> infer_instance

instance : Spares all [] .free .free (multiplicative inner) :=
  inferInstanceAs (Spares all [] .free .free (chainLeft _ _ _))

instance : Spares all [] .free .free (additive inner) :=
  inferInstanceAs (Spares all [] .free .free (chainLeft _ _ _))

instance (t : Token) [Silent t] : Spares all [t] .free .free (quantifiedOperand inner true) := by
  unfold quantifiedOperand
  infer_instance

instance : Spares all [] .free .free (quantifiedOperand inner false) :=
  inferInstanceAs (Spares all [] .free .free (additive inner))

instance : Spares all [] .free .free (comparand inner) := by
  rw [comparand_eq]
  infer_instance

instance (left : Expression) [Spared all left] (negated : Bool) :
    Spares all [] .free .free (membership inner left negated) := by
  unfold membership
  infer_instance

instance (left : Expression) [Spared all left] (negated : Bool) :
    Spares all [] .free .free (range inner left negated) := by
  unfold range
  infer_instance

instance (left : Expression) [Spared all left] (negated : Bool) :
    Spares all [] .free .free (pattern inner left negated) := by
  unfold pattern
  infer_instance

instance (left : Expression) [Spared all left] :
    Spares all [] .free .free (condition inner left) := by
  unfold condition
  infer_instance

instance (left : Expression) [Spared all left] (op : BinaryOperator) :
    Spares all [] .free .free (comparisonTail inner left op) := by
  unfold comparisonTail
  infer_instance

instance (left : Expression) [Spared all left] :
    Spares all [] .free .free (testTail inner left) := by
  unfold testTail
  infer_instance

instance (left : Expression) [Spared all left] :
    Spares all [] .free .free (predicateTail inner left) := by
  rw [predicateTail_eq]
  apply next
  intro op? _
  cases op? <;> infer_instance

instance : Spares all [] .free .free (predicate inner) := by
  rw [predicate_eq]
  infer_instance

instance : Spares all [] .free .free (negation inner) := by
  unfold negation
  infer_instance

instance : Spares all [] .free .free (conjunction inner) :=
  inferInstanceAs (Spares all [] .free .free (chainLeft _ _ _))

instance : Spares all [] .free .free (disjunction inner) :=
  inferInstanceAs (Spares all [] .free .free (chainLeft _ _ _))

end Parser.Spares

end QueryNames.Grammar
