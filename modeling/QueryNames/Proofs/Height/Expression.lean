import QueryNames.Proofs.Built.Expression
import QueryNames.Proofs.Height.Tree

/-!
How high expressions are. An expression in which other things stand adds one to what is found one
level further inside, and a condition on it one more.
-/

namespace QueryNames.Grammar.Parser

/-- The parser finds trees that are within `k`. -/
abbrev Bounds (k : Nat) (outline : α → Outline) (p : Parser α) : Prop :=
  Finds (fun _ => True) (fun a => (outline a).Within k) p

/-- What the parsers of a level find is within `k + 1`. -/
structure LevelBounds (k : Nat) (inner : Level) : Prop where
  query : Finds (fun _ => True) (Query.Within k) inner.query
  source : Bounds (k + 1) TableSource.outline inner.source
  expression : Bounds (k + 1) Expression.outline inner.expression
  negation : Bounds (k + 1) Expression.outline inner.negation
  signed : Bounds (k + 1) Expression.outline inner.signed

namespace LevelBounds

variable {k : Nat} {inner : Level} [inner.Stepwise] (h : LevelBounds k inner)

include h

/-! Subqueries, lists and windows. -/

theorem subquery : Bounds (k + 1) Query.outline (Parser.subquery inner) := by
  apply Finds.next
  intro _
  split
  · apply Finds.next
    intro _
    apply Finds.bind h.query.attempt
    intro query? within
    apply Finds.next
    intro _
    exact .ofOption fun query is => (within query is).outline
  · exact .missing

theorem expressionList :
    Finds (fun _ => True) (fun list => ∀ e ∈ list, e.outline.Within (k + 1))
      (Parser.expressionList inner) :=
  .commaList h.expression

theorem orderItem : Bounds (k + 1) OrderItem.outline (Parser.orderItem inner) := by
  have item {e : Expression} {ascending : Option Bool} (within : e.outline.Within (k + 1)) :
      (OrderItem.mk e ascending).outline.Within (k + 1) :=
    Outline.within_same (Nat.zero_le _) (List.forall_mem_singleton.2 within)
  apply Finds.bind h.expression
  intro e within
  apply Finds.next
  intro _
  split
  · exact .pure (item within)
  · apply Finds.next
    intro _
    split <;> exact .pure (item within)

theorem orderList :
    Finds (fun _ => True) (fun items => ∀ item ∈ items, item.outline.Within (k + 1))
      (Parser.orderList inner) :=
  .commaList h.orderItem

omit [inner.Stepwise] in
/-- A bare star is an expression by itself. -/
theorem argument : Bounds (k + 1) Expression.outline (Parser.argument inner) := by
  apply Finds.next
  intro t
  split
  · apply Finds.next
    intro _
    apply Finds.pure
    show 1 ≤ k + 1 + 0
    omega
  · exact h.expression

theorem arguments :
    Finds (fun _ => True) (fun list => ∀ e ∈ list, e.outline.Within (k + 1))
      (Parser.arguments inner) := by
  apply Finds.next
  intro _
  split
  · exact .pure nofun
  · apply Finds.bind (.commaList h.argument)
    intro list within
    apply Finds.next
    intro _
    exact .pure within

theorem window :
    Finds (fun _ => True) (fun w => ∀ o ∈ Window.outlines? (some w), o.Within (k + 1))
      (Parser.window inner) := by
  apply Finds.next
  intro _
  apply Finds.next
  intro _
  apply Finds.bind (.onlyIf (.next fun _ => h.expressionList))
  intro partition? partitioned
  apply Finds.next
  intro _
  apply Finds.bind (.onlyIf (.next fun _ => h.orderList))
  intro order? ordered
  apply Finds.next
  intro _
  apply Finds.next
  intro _
  apply Finds.next
  intro _
  apply Finds.pure
  rw [Window.outlines?, List.forall_mem_append, Expression.outlines_eq_map, List.forall_mem_map,
    OrderItem.outlines_eq_map, List.forall_mem_map]
  exact ⟨forall_mem_getD partitioned, forall_mem_getD ordered⟩

theorem call {name : QualifiedName} :
    Bounds (k + 2) Expression.outline (Parser.call inner name) := by
  apply Finds.next
  intro _
  apply Finds.next
  intro distinct
  apply Finds.next
  intro _
  apply Finds.bind h.arguments
  intro list within
  have listed : ∀ o ∈ Expression.outlines list, o.Within (k + 1) := by
    rw [Expression.outlines_eq_map, List.forall_mem_map]
    exact within
  apply Finds.next
  intro _
  apply Finds.next
  intro _
  apply Finds.next
  intro _
  split
  · apply Finds.bind h.window
    intro w windowed
    exact .pure (Outline.within_inside (List.forall_mem_append.2 ⟨listed, windowed⟩))
  · exact .pure (Outline.within_inside (List.forall_mem_append.2 ⟨listed, nofun⟩))

/-! Primary expressions. -/

theorem whenBranch :
    Finds (fun _ => True) (fun r => ∀ branch ∈ r.1, branch.condition.outline.Within (k + 1) ∧
      branch.result.outline.Within (k + 1)) (Parser.whenBranch inner) := by
  apply Finds.next
  intro _
  split
  · apply Finds.bind h.expression
    intro condition first
    apply Finds.next
    intro _
    apply Finds.bind h.expression
    intro result second
    apply Finds.pure
    rintro _ ⟨⟩
    exact ⟨first, second⟩
  · exact .pure nofun

theorem caseExpression : Bounds (k + 2) Expression.outline (Parser.caseExpression inner) := by
  apply Finds.next
  intro _
  apply Finds.next
  intro _
  apply Finds.bind (.requiredIf h.expression)
  intro operand subject
  apply Finds.bind (.collect h.whenBranch)
  intro branches within
  split
  · exact .missing
  · apply Finds.next
    intro _
    apply Finds.bind (.requiredIf h.expression)
    intro otherwise last
    apply Finds.next
    intro _
    apply Finds.pure
    apply Outline.within_inside
    simp only [Expression.outlines?_eq_map, WhenBranch.outlines_eq_flatMap, List.forall_mem_append,
      List.forall_mem_map, List.forall_mem_flatMap, Option.mem_toList, List.forall_mem_cons,
      List.not_mem_nil, false_implies, implies_true, and_true]
    exact ⟨⟨subject, within⟩, last⟩

theorem castExpression : Bounds (k + 2) Expression.outline (Parser.castExpression inner) := by
  apply Finds.next
  intro _
  apply Finds.next
  intro _
  apply Finds.bind h.expression
  intro e within
  apply Finds.next
  intro _
  apply Finds.next
  intro type
  apply Finds.next
  intro _
  exact .pure (Outline.within_inside (List.forall_mem_singleton.2 within))

theorem convertExpression :
    Bounds (k + 2) Expression.outline (Parser.convertExpression inner) := by
  apply Finds.next
  intro _
  apply Finds.next
  intro _
  apply Finds.next
  intro type
  apply Finds.next
  intro _
  apply Finds.bind h.expression
  intro e within
  apply Finds.next
  intro _
  apply Finds.bind (.requiredIf h.expression)
  intro style styled
  apply Finds.next
  intro _
  apply Finds.pure
  apply Outline.within_inside
  rw [Expression.outlines?_eq_map, List.forall_mem_cons, List.forall_mem_map]
  exact ⟨within, fun e is => styled e (Option.mem_toList.1 is)⟩

theorem existsExpression : Bounds (k + 2) Expression.outline (Parser.existsExpression inner) := by
  apply Finds.next
  intro _
  apply Finds.bind h.subquery
  intro query within
  exact .pure (Outline.within_inside (List.forall_mem_singleton.2 within))

theorem parenthesized : Bounds (k + 2) Expression.outline (Parser.parenthesized inner) := by
  apply Finds.next
  intro _
  split
  · apply Finds.bind h.subquery
    intro query within
    exact .pure (Outline.within_inside (List.forall_mem_singleton.2 within))
  · apply Finds.next
    intro _
    apply Finds.bind h.expression.attempt
    intro e? within
    apply Finds.next
    intro _
    apply Finds.bind (.ofOption within)
    intro e inside
    exact .pure (Outline.within_inside (List.forall_mem_singleton.2 inside))

omit [inner.Stepwise] h in
/-- An expression in which no other stands. -/
theorem lone {e : Expression} {inside : List Outline}
    (is : e.outline = .node (.expression e) inside)
    (within : ∀ o ∈ inside, o.Within 0) : e.outline.Within (k + 2) := by
  rw [is]
  exact (Outline.within_inside within).mono (Nat.le_add_left 1 (k + 1))

theorem columnOrCall : Bounds (k + 2) Expression.outline (Parser.columnOrCall inner) := by
  apply Finds.next
  intro location
  apply Finds.next
  intro name
  apply Finds.next
  intro _
  split
  · exact h.call
  · exact .pure (lone rfl (List.forall_mem_singleton.2 (Nat.le_refl 0)))

theorem named (t next : Token) :
    Bounds (k + 2) Expression.outline (Parser.named inner t next) := by
  dsimp only [Parser.named]
  split
  · exact h.castExpression
  · split
    · exact h.convertExpression
    · split
      · exact .next fun _ => .pure (lone rfl nofun)
      · exact h.columnOrCall

theorem primary : Bounds (k + 2) Expression.outline (Parser.primary inner) := by
  have leaf {e : Expression} (is : e.outline = .node (.expression e) []) :
      Bounds (k + 2) Expression.outline (Parser.leaf e) := .next fun _ => .pure (lone is nofun)
  have called {t next : Token} : Bounds (k + 2) Expression.outline
      (if next.isPunctuation .leftParen then do
        Parser.advance
        Parser.call inner (.ofIdentifier ⟨t.text, none, t.location⟩)
      else Parser.missing .expression) := by
    split
    · exact .next fun _ => h.call
    · exact .missing
  apply Finds.next
  intro t
  apply Finds.next
  intro next
  split
  · exact leaf rfl
  · exact leaf rfl
  · exact leaf rfl
  · exact leaf rfl
  · exact h.caseExpression
  · exact h.convertExpression
  · exact h.existsExpression
  · exact called
  · exact called
  · exact h.parenthesized
  · exact h.named t next
  · exact .missing

/-! Operators. -/

omit [inner.Stepwise] h in
/-- A sum or a product, a conjunction or a disjunction, is a link. -/
theorem binary {op : BinaryOperator} {left right : Expression} {m : Nat}
    (links : op.compares = false)
    (first : left.outline.Within m) (second : right.outline.Within m) :
    (Expression.binary op left right).outline.Within m := by
  apply Outline.within_same
  · simp [Node.calls, Node.links, links]
  · exact List.forall_mem_cons.2 ⟨first, List.forall_mem_singleton.2 second⟩

omit [inner.Stepwise] h in
/-- A chain is as high as its operands. -/
theorem chain {m : Nat} {operand : Parser Expression} [Parser.Stepwise operand]
    {table : TokenKind → Option BinaryOperator}
    (links : ∀ kind op, table kind = some op → op.compares = false)
    (operands : Bounds m Expression.outline operand) :
    Bounds m Expression.outline (chainLeft operand (operator? table) .binary) := by
  have operators : Finds (fun _ => True) (fun op? => ∀ op ∈ op?, op.compares = false)
      (operator? table) := by
    apply Finds.next
    intro t
    split
    · rename_i op known
      apply Finds.next
      intro _
      apply Finds.pure
      rintro _ ⟨⟩
      exact links t.kind op known
    · exact .pure (by simp)
  have round (left : Expression) (first : left.outline.Within m) :
      Finds (fun _ => True) (fun r => r.1.outline.Within m)
        (chainRound operand (operator? table) .binary left) := by
    apply Finds.bind operators
    intro op? link
    cases op? with
    | none => exact .pure first
    | some op =>
        apply Finds.attemptNext operands
        · exact .pure first
        · intro right second
          exact .pure (binary (link op rfl) first second)
  rw [chainLeft_eq]
  apply Finds.bind operands
  intro first within
  exact .iterate round within

theorem signs : Bounds (k + 2) Expression.outline (Parser.signed inner) := by
  apply Finds.next
  intro op?
  cases op? with
  | none => exact h.primary
  | some op =>
      apply Finds.bind h.signed
      intro e within
      exact .pure (Outline.within_inside (List.forall_mem_singleton.2 within))

theorem multiplicative : Bounds (k + 2) Expression.outline (Parser.multiplicative inner) := by
  apply chain _ h.signs
  intro kind op known
  unfold multiplicative? at known
  split at known <;> cases known <;> rfl

theorem additive : Bounds (k + 2) Expression.outline (Parser.additive inner) := by
  apply chain _ h.multiplicative
  intro kind op known
  unfold additive? at known
  split at known <;> cases known <;> rfl

theorem comparand : Bounds (k + 2) Expression.outline (Parser.comparand inner) := by
  apply Finds.next
  intro quantified
  apply Finds.next
  intro next
  split
  · apply Finds.next
    intro _
    apply Finds.bind h.subquery
    intro query within
    exact .pure (Outline.within_inside (List.forall_mem_singleton.2 within))
  · exact h.additive

/-! A condition stands above its operands, which are no conditions themselves. -/

section Conditions

variable {left : Expression} (negated : Bool) (first : left.outline.Within (k + 2))

include first

theorem membership : Bounds (k + 3) Expression.outline (Parser.membership inner left negated) := by
  apply Finds.next
  intro _
  split
  · apply Finds.attemptNext h.subquery
    · exact .pure (first.mono (Nat.le_succ _))
    · intro query within
      have inside := within.mono (Nat.le_succ (k + 1))
      exact .pure (Outline.within_inside
        (List.forall_mem_cons.2 ⟨first, List.forall_mem_singleton.2 inside⟩))
  · apply Finds.next
    intro _
    split
    · apply Finds.bind h.expressionList
      intro list within
      apply Finds.next
      intro _
      apply Finds.pure
      apply Outline.within_inside
      rw [List.forall_mem_cons, Expression.outlines_eq_map, List.forall_mem_map]
      exact ⟨first, fun e member => (within e member).mono (Nat.le_succ _)⟩
    · apply Finds.next
      intro _
      exact .pure (first.mono (Nat.le_succ _))

theorem range : Bounds (k + 3) Expression.outline (Parser.range inner left negated) := by
  have bounds : Finds (fun _ => True) (fun bounds => bounds.1.outline.Within (k + 2) ∧
      bounds.2.outline.Within (k + 2)) (do
        let low ← Parser.additive inner
        Parser.requireKeyword .and
        let high ← Parser.additive inner
        return (low, high)) := by
    apply Finds.bind h.additive
    intro low lower
    apply Finds.next
    intro _
    apply Finds.bind h.additive
    intro high upper
    exact .pure ⟨lower, upper⟩
  apply Finds.attemptNext bounds
  · exact .pure (first.mono (Nat.le_succ _))
  · rintro ⟨low, high⟩ ⟨lower, upper⟩
    apply Finds.pure
    apply Outline.within_inside
    exact List.forall_mem_cons.2 ⟨first, List.forall_mem_cons.2 ⟨lower,
      List.forall_mem_singleton.2 upper⟩⟩

theorem pattern : Bounds (k + 3) Expression.outline (Parser.pattern inner left negated) := by
  apply Finds.attemptNext h.additive
  · exact .pure (first.mono (Nat.le_succ _))
  · intro pattern like
    apply Finds.next
    intro _
    apply Finds.bind (.onlyIf h.additive)
    intro escape? escapes
    apply Finds.pure
    apply Outline.within_inside
    rw [List.forall_mem_cons, List.forall_mem_cons, Expression.outlines?_eq_map,
      List.forall_mem_map]
    exact ⟨first, like, fun e is => escapes e (Option.mem_toList.1 is)⟩

omit [inner.Stepwise] h in
theorem nullTest : Bounds (k + 3) Expression.outline (Parser.nullTest left) := by
  apply Finds.next
  intro negated
  apply Finds.next
  intro _
  split
  · exact .pure (Outline.within_inside (List.forall_mem_singleton.2 first))
  · exact .pure (first.mono (Nat.le_succ _))

theorem condition : Bounds (k + 3) Expression.outline (Parser.condition inner left) := by
  apply Finds.next
  intro next
  apply Finds.next
  intro negated
  apply Finds.next
  intro _
  split
  · exact h.membership negated first
  · apply Finds.next
    intro _
    split
    · exact h.range negated first
    · apply Finds.next
      intro _
      split
      · exact h.pattern negated first
      · exact .pure (first.mono (Nat.le_succ _))

end Conditions

theorem predicate : Bounds (k + 3) Expression.outline (Parser.predicate inner) := by
  apply Finds.next
  intro _
  split
  · exact h.existsExpression.weaken fun e within => within.mono (Nat.le_succ _)
  · apply Finds.bind h.additive
    intro left first
    apply Finds.next
    intro op?
    cases op? with
    | none =>
        apply Finds.next
        intro _
        split
        · exact nullTest first
        · exact h.condition first
    | some op =>
        apply Finds.attemptNext h.comparand
        · exact .pure (first.mono (Nat.le_succ _))
        · intro right second
          exact .pure (Outline.within_inside
            (List.forall_mem_cons.2 ⟨first, List.forall_mem_singleton.2 second⟩))

theorem negations : Bounds (k + 3) Expression.outline (Parser.negation inner) := by
  apply Finds.next
  intro _
  split
  · apply Finds.bind h.negation
    intro e within
    have inside := within.mono (Nat.le_succ (k + 1))
    exact .pure (Outline.within_inside (List.forall_mem_singleton.2 inside))
  · exact h.predicate

theorem conjunction : Bounds (k + 3) Expression.outline (Parser.conjunction inner) := by
  apply chain _ h.negations
  intro kind op known
  unfold conjunction? at known
  split at known <;> cases known
  rfl

theorem disjunction : Bounds (k + 3) Expression.outline (Parser.disjunction inner) := by
  apply chain _ h.conjunction
  intro kind op known
  unfold disjunction? at known
  split at known <;> cases known
  rfl

end LevelBounds

end QueryNames.Grammar.Parser
