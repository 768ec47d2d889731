import QueryNames.Proofs.Built.Rules
import QueryNames.Proofs.Built.Tree

/-!
How expressions are built. What stands one level further inside is built with one level less.
-/

namespace QueryNames.Grammar.Parser

/-- With nothing but legible tokens ahead, the parser finds trees built with `n` levels. -/
abbrev Builds (reads : Identifier → Prop) (n : Nat) (tree : α → Tree) (p : Parser α) : Prop :=
  Finds reads (fun a => Built reads n (tree a)) p

theorem forall_mem_getD {P : α → Prop} {as? : Option (List α)} (holds : ∀ as ∈ as?, ∀ a ∈ as, P a) :
    ∀ a ∈ as?.getD [], P a := by
  cases as? with
  | none => exact List.forall_mem_nil _
  | some as => exact holds as rfl

/-- The parsers of a level build with `n` levels. -/
structure LevelBuilds (reads : Identifier → Prop) (n : Nat) (inner : Level) : Prop where
  query : Builds reads n .query inner.query
  source : Builds reads n .source inner.source
  expression : Builds reads n .expression inner.expression
  negation : Builds reads n .expression inner.negation
  signed : Builds reads n .expression inner.signed

namespace LevelBuilds

variable {reads : Identifier → Prop} {n : Nat} {inner : Level} [inner.Stepwise]
  (h : LevelBuilds reads n inner)

include h

/-! Subqueries, lists and windows. -/

theorem subquery : Builds reads n .query (Parser.subquery inner) := by
  apply Finds.next
  intro _
  split
  · apply Finds.next
    intro _
    apply Finds.bind h.query.attempt
    intro query? built
    apply Finds.next
    intro _
    exact .ofOption built
  · exact .missing

theorem expressionList :
    Finds reads (fun list => ∀ e ∈ list, Built reads n (.expression e))
      (Parser.expressionList inner) :=
  .commaList h.expression

theorem orderItem : Builds reads n (fun item => .expression item.expression)
    (Parser.orderItem inner) := by
  apply Finds.bind h.expression
  intro e built
  apply Finds.next
  intro _
  split
  · exact .pure built
  · apply Finds.next
    intro _
    split <;> exact .pure built

theorem orderList :
    Finds reads (fun items => ∀ item ∈ items, Built reads n (.expression item.expression))
      (Parser.orderList inner) :=
  .commaList h.orderItem

omit [inner.Stepwise] in
theorem argument :
    Finds reads (fun e => e.isStar = false → Built reads n (.expression e))
      (Parser.argument inner) := by
  apply Finds.next
  intro t
  split
  · apply Finds.next
    intro _
    exact .pure nofun
  · exact h.expression.weaken fun e built _ => built

theorem arguments :
    Finds reads (fun list => ∀ e ∈ list, e.isStar = false → Built reads n (.expression e))
      (Parser.arguments inner) := by
  apply Finds.next
  intro _
  split
  · exact .pure nofun
  · apply Finds.bind (.commaList h.argument)
    intro list built
    apply Finds.next
    intro _
    exact .pure built

theorem window :
    Finds reads (fun w => (∀ e ∈ w.partitionBy, Built reads n (.expression e)) ∧
      ∀ item ∈ w.orderBy, Built reads n (.expression item.expression)) (Parser.window inner) := by
  apply Finds.next
  intro _
  apply Finds.next
  intro _
  apply Finds.bind (.onlyIf (.next fun _ => h.expressionList))
  intro partition? partitioned
  apply Finds.next
  intro _
  apply Finds.bind (.onlyIf (.next fun _ => h.orderList))
  intro order? ordered
  apply Finds.next
  intro _
  apply Finds.next
  intro _
  apply Finds.next
  intro _
  exact .pure ⟨forall_mem_getD partitioned, forall_mem_getD ordered⟩

theorem call {name : QualifiedName} (names : ∀ part ∈ name.parts, reads part) :
    Builds reads (n + 1) .expression (Parser.call inner name) := by
  apply Finds.next
  intro _
  apply Finds.next
  intro distinct
  apply Finds.next
  intro _
  apply Finds.bind h.arguments
  intro list built
  apply Finds.next
  intro _
  apply Finds.next
  intro _
  apply Finds.next
  intro _
  split
  · apply Finds.bind h.window
    rintro w ⟨partitioned, ordered⟩
    apply Finds.pure
    apply Built.function names built
    · rintro _ ⟨⟩
      exact partitioned
    · rintro _ ⟨⟩
      exact ordered
  · exact .pure (.function names built nofun nofun)

/-! Primary expressions. -/

theorem whenBranch :
    Finds reads (fun r => ∀ branch ∈ r.1, Built reads n (.expression branch.condition) ∧
      Built reads n (.expression branch.result)) (Parser.whenBranch inner) := by
  apply Finds.next
  intro _
  split
  · apply Finds.bind h.expression
    intro condition first
    apply Finds.next
    intro _
    apply Finds.bind h.expression
    intro result second
    apply Finds.pure
    rintro _ ⟨⟩
    exact ⟨first, second⟩
  · exact .pure nofun

theorem caseExpression : Builds reads (n + 1) .expression (Parser.caseExpression inner) := by
  apply Finds.next
  intro _
  apply Finds.next
  intro _
  apply Finds.bind (.requiredIf h.expression)
  intro operand subject
  apply Finds.bind (.collect h.whenBranch)
  intro branches built
  split
  · exact .missing
  · apply Finds.next
    intro _
    apply Finds.bind (.requiredIf h.expression)
    intro otherwise last
    apply Finds.next
    intro _
    apply Finds.pure
    exact .case subject (fun branch member => (built branch member).1)
      (fun branch member => (built branch member).2) last

theorem castExpression : Builds reads (n + 1) .expression (Parser.castExpression inner) := by
  apply Finds.next
  intro _
  apply Finds.next
  intro _
  apply Finds.bind h.expression
  intro e built
  apply Finds.next
  intro _
  apply Finds.next
  intro type
  apply Finds.next
  intro _
  exact .pure (.cast built nofun)

theorem convertExpression : Builds reads (n + 1) .expression (Parser.convertExpression inner) := by
  apply Finds.next
  intro _
  apply Finds.next
  intro _
  apply Finds.next
  intro type
  apply Finds.next
  intro _
  apply Finds.bind h.expression
  intro e built
  apply Finds.next
  intro _
  apply Finds.bind (.requiredIf h.expression)
  intro style styled
  apply Finds.next
  intro _
  exact .pure (.cast built styled)

theorem existsExpression : Builds reads (n + 1) .expression (Parser.existsExpression inner) := by
  apply Finds.next
  intro _
  apply Finds.bind h.subquery
  intro query built
  exact .pure (.exists built)

theorem parenthesized : Builds reads (n + 1) .expression (Parser.parenthesized inner) := by
  apply Finds.next
  intro _
  split
  · apply Finds.bind h.subquery
    intro query built
    exact .pure (.subquery built)
  · apply Finds.next
    intro _
    apply Finds.bind h.expression.attempt
    intro e? built
    apply Finds.next
    intro _
    apply Finds.bind (.ofOption built)
    intro e inside
    exact .pure (.nested inside)

theorem columnOrCall : Builds reads (n + 1) .expression (Parser.columnOrCall inner) := by
  apply Finds.next
  intro location
  apply Finds.bind .qualifiedName
  intro name names
  apply Finds.next
  intro _
  split
  · exact h.call names
  · apply Finds.pure
    apply Built.column
    simpa [Node.names] using names

theorem named (t next : Token) : Builds reads (n + 1) .expression (Parser.named inner t next) := by
  dsimp only [Parser.named]
  split
  · exact h.castExpression
  · split
    · exact h.convertExpression
    · split
      · exact .next fun _ => .pure .niladic
      · exact h.columnOrCall

theorem primary : Builds reads (n + 1) .expression (Parser.primary inner) := by
  have leaf {e : Expression} (built : Built reads (n + 1) (.expression e)) :
      Builds reads (n + 1) .expression (Parser.leaf e) := .next fun _ => .pure built
  have called {t next : Token} (name : reads ⟨t.text, none, t.location⟩) :
      Builds reads (n + 1) .expression (if next.isPunctuation .leftParen then do
        Parser.advance
        Parser.call inner (.ofIdentifier ⟨t.text, none, t.location⟩)
      else Parser.missing .expression) := by
    split
    · apply Finds.next
      intro _
      apply h.call
      simpa [QualifiedName.ofIdentifier, QualifiedName.parts] using name
    · exact .missing
  apply Finds.bind .current
  intro t legible
  apply Finds.next
  intro next
  split
  · exact leaf .literal
  · exact leaf .literal
  · exact leaf .variable
  · exact leaf .literal
  · exact h.caseExpression
  · exact h.convertExpression
  · exact h.existsExpression
  · rename_i kind
    exact called (legible.called (.inl kind))
  · rename_i kind
    exact called (legible.called (.inr kind))
  · exact h.parenthesized
  · exact h.named t next
  · exact .missing

/-! Operators. -/

theorem signs : Builds reads (n + 1) .expression (Parser.signed inner) := by
  apply Finds.next
  intro op?
  cases op? with
  | none => exact h.primary
  | some op =>
      apply Finds.bind h.signed
      intro e built
      exact .pure (.unary built)

theorem multiplicative : Builds reads (n + 1) .expression (Parser.multiplicative inner) :=
  .chainLeft h.signs fun _ _ _ => .binary

theorem additive : Builds reads (n + 1) .expression (Parser.additive inner) :=
  .chainLeft h.multiplicative fun _ _ _ => .binary

theorem comparand : Builds reads (n + 1) .expression (Parser.comparand inner) := by
  apply Finds.next
  intro quantified
  apply Finds.next
  intro next
  split
  · apply Finds.next
    intro _
    apply Finds.bind h.subquery
    intro query built
    exact .pure (.subquery built)
  · exact h.additive

section Conditions

variable {left : Expression} (negated : Bool) (first : Built reads (n + 1) (.expression left))

include first

theorem membership : Builds reads (n + 1) .expression (Parser.membership inner left negated) := by
  apply Finds.next
  intro _
  split
  · apply Finds.attemptNext h.subquery
    · exact .pure first
    · intro query built
      exact .pure (.inSubquery first built)
  · apply Finds.next
    intro _
    split
    · apply Finds.bind h.expressionList
      intro list built
      apply Finds.next
      intro _
      exact .pure (.inList first built)
    · apply Finds.next
      intro _
      exact .pure first

theorem range : Builds reads (n + 1) .expression (Parser.range inner left negated) := by
  have bounds : Finds reads (fun bounds => Built reads (n + 1) (.expression bounds.1) ∧
      Built reads (n + 1) (.expression bounds.2)) (do
        let low ← Parser.additive inner
        Parser.requireKeyword .and
        let high ← Parser.additive inner
        return (low, high)) := by
    apply Finds.bind h.additive
    intro low lower
    apply Finds.next
    intro _
    apply Finds.bind h.additive
    intro high upper
    exact .pure ⟨lower, upper⟩
  apply Finds.attemptNext bounds
  · exact .pure first
  · rintro ⟨low, high⟩ ⟨lower, upper⟩
    exact .pure (.between first lower upper)

theorem pattern : Builds reads (n + 1) .expression (Parser.pattern inner left negated) := by
  apply Finds.attemptNext h.additive
  · exact .pure first
  · intro pattern like
    apply Finds.next
    intro _
    apply Finds.bind (.onlyIf h.additive)
    intro escape? escapes
    exact .pure (.like first like escapes)

omit [inner.Stepwise] h in
theorem nullTest : Builds reads (n + 1) .expression (Parser.nullTest left) := by
  apply Finds.next
  intro negated
  apply Finds.next
  intro _
  split
  · exact .pure (.isNull first)
  · exact .pure first

theorem condition : Builds reads (n + 1) .expression (Parser.condition inner left) := by
  apply Finds.next
  intro next
  apply Finds.next
  intro negated
  apply Finds.next
  intro _
  split
  · exact h.membership negated first
  · apply Finds.next
    intro _
    split
    · exact h.range negated first
    · apply Finds.next
      intro _
      split
      · exact h.pattern negated first
      · exact .pure first

end Conditions

theorem predicate : Builds reads (n + 1) .expression (Parser.predicate inner) := by
  apply Finds.next
  intro _
  split
  · exact h.existsExpression
  · apply Finds.bind h.additive
    intro left first
    apply Finds.next
    intro op?
    cases op? with
    | none =>
        apply Finds.next
        intro _
        split
        · exact nullTest first
        · exact h.condition first
    | some op =>
        apply Finds.attemptNext h.comparand
        · exact .pure first
        · intro right second
          exact .pure (.binary first second)

theorem negations : Builds reads (n + 1) .expression (Parser.negation inner) := by
  apply Finds.next
  intro _
  split
  · apply Finds.bind h.negation
    intro e built
    exact .pure (.unary built)
  · exact h.predicate

theorem conjunction : Builds reads (n + 1) .expression (Parser.conjunction inner) :=
  .chainLeft h.negations fun _ _ _ => .binary

theorem disjunction : Builds reads (n + 1) .expression (Parser.disjunction inner) :=
  .chainLeft h.conjunction fun _ _ _ => .binary

end LevelBuilds

end QueryNames.Grammar.Parser
