import QueryNames.Grammar.Expression
import QueryNames.Proofs.Reading.Rules

/-!
Names, lists and expressions read no more than they pass.
-/

namespace QueryNames.Grammar.Parser

namespace Reads

variable {before : List Identifier}

/-! Complaints and recovery. -/

theorem reportMissing {expected : Expected} : Reads [] (reportMissing expected) :=
  .bind (.look fun _ => rfl) fun _ => .forget .report

theorem reportSurplus {expected : Expected} : Reads [] (reportSurplus expected) :=
  .bind (.look fun _ => rfl) fun _ => .forget .report

theorem missing [Naming α] {expected : Expected} :
    Reads before (missing expected : Parser α) :=
  .bind reportMissing fun _ => .giveUp

theorem requireKeyword {k : Keyword} : Reads [] (requireKeyword k) := by
  refine .bind .accept fun found => ?_
  split
  · exact .pure (by simp [names])
  · exact missing

theorem requirePunctuation {p : Punctuation} : Reads [] (requirePunctuation p) := by
  refine .bind .accept fun found => ?_
  split
  · exact .pure (by simp [names])
  · exact missing

theorem succeeds {p : Parser Unit} (reads : Reads [] p) : Reads [] (succeeds p) :=
  .bind reads.attempt fun _ => .pure (by simp [names])

theorem skipUntil {stop : Token → Bool} : Reads [] (skipUntil stop) :=
  .move (Cursor.skipUntil_suffix stop)

theorem skipGroup : Reads [] skipGroup := .move (Cursor.skipUntil_suffix _)

theorem skipParenthesized : Reads [] skipParenthesized := .move Cursor.skipParenthesized_suffix

theorem advance : Reads [] advance := .move Cursor.advance_suffix

theorem closeParen : Reads [] closeParen := by
  refine .bind .accept fun closes => ?_
  split
  · exact .pure (by simp [names])
  · refine .bind reportMissing fun _ => ?_
    refine .bind skipGroup fun _ => ?_
    exact .bind .accept fun _ => .pure (by simp [names])

theorem finishItem {ends : Token → Bool} {parsed : Bool} : Reads [] (finishItem ends parsed) := by
  refine .bind (.look fun _ => rfl) fun t => ?_
  refine .bind (.onlyIf reportSurplus) fun _ => ?_
  exact .bind skipUntil fun _ => .forget .accept

theorem finishClause {parsed : Bool} : Reads [] (finishClause parsed) := by
  refine .bind (.look fun _ => rfl) fun t => ?_
  refine .bind (.onlyIf reportSurplus) fun _ => ?_
  exact .forget skipUntil

theorem commaList [Naming α] {ends : Token → Bool} {item : Parser α} (reads : Reads [] item) :
    Reads [] (commaList ends item) := by
  refine .collect (.bind reads.attempt fun item? => ?_)
  refine .bind finishItem fun more => .pure ?_
  simp [names]

theorem tooDeep [Naming α] {ends : Token → Bool} : Reads [] (tooDeep ends : Parser α) :=
  .bind .report fun _ => .bind skipUntil fun _ => .giveUp

/-! Names and data types. -/

theorem identifier : Reads [] identifier := by
  intro origin ids s passed
  rw [identifier_apply]
  by_cases kind : s.cursor.current.kind = .identifier
  · rw [if_pos kind]
    simpa [names] using passed.identifier kind
  · rw [if_neg kind]
    simpa using passed

theorem requireIdentifier {expected : Expected} : Reads [] (requireIdentifier expected) := by
  refine .bind identifier.attempt fun name? => ?_
  cases name? with
  | none => exact missing
  | some name => exact .pure (by simp [names])

theorem qualifiedName : Reads [] qualifiedName := by
  refine .bind identifier.attempt fun first? => ?_
  cases first? with
  | none => exact missing
  | some first =>
      refine .bind (.collect ?_) fun others => .pure ?_
      · refine .bind .accept fun period => ?_
        split
        · refine .bind (.look fun _ => rfl) fun _ => ?_
          split
          · exact .pure (by simp [names])
          · refine .bind identifier.attempt fun part? => ?_
            cases part? with
            | none => exact .bind reportMissing fun _ => .pure (by simp [names])
            | some part => exact .pure (by simp [names])
        · exact .pure (by simp [names])
      · simp [names, QualifiedName.parts]

theorem identifierList : Reads [] identifierList := by
  refine .bind advance fun _ => ?_
  refine .bind (.commaList requireIdentifier) fun _ => ?_
  exact .bind closeParen fun _ => .pure (by simp [names])

theorem columnNames : Reads [] columnNames := by
  refine .bind (.look fun _ => rfl) fun _ => ?_
  split
  · exact identifierList
  · exact .pure (by simp [names])

theorem typeArguments : Reads [] typeArguments := by
  refine .bind (.collect (.bind (.look fun _ => rfl) fun t => ?_)) fun _ =>
    .pure (by simp [names])
  split
  · exact .pure (by simp [names])
  · exact .bind advance fun _ => .pure (by simp [names])

theorem dataType : Reads [] dataType := by
  refine .bind qualifiedName fun name => ?_
  refine .bind .accept fun _ => ?_
  split
  · refine .bind typeArguments fun _ => ?_
    exact .bind closeParen fun _ => .pure (by simp [names])
  · exact .pure (by simp [names])

/-! Parts of expressions that hold no level of their own. -/

theorem leaf {e : Expression} (nameless : e.outline.identifiers = []) : Reads [] (leaf e) :=
  .bind .advance fun _ => .pure (by simp [names, nameless])

theorem operator? [Naming ω] {table : TokenKind → Option ω} (nameless : ∀ op : ω, names op = []) :
    Reads [] (operator? table) := by
  refine .bind (.look fun _ => rfl) fun t => ?_
  split
  · exact .bind .advance fun _ => .pure (by simp [names, nameless])
  · exact .pure (by simp [names])

/-- Operands joined by operators name what the operands do. -/
theorem binaries {operand : Parser Expression} {table : TokenKind → Option BinaryOperator}
    (reads : Reads [] operand) :
    Reads [] (Parser.chainLeft operand (Parser.operator? table) .binary) :=
  .chainLeft reads (operator? fun _ => rfl) fun op left right => by
    simp [names, Expression.outline, Node.mentions]

theorem nullTest (left : Expression) : Reads (names left) (nullTest left) := by
  refine .bind .accept fun negated => .bind (.succeeds .requireKeyword) fun _ => ?_
  split
  · exact .pure (by simp [names, Expression.outline, Node.mentions])
  · exact .pure (by simp)

end Reads

/-- The parsers of the level inside read no more than they pass. -/
structure LevelReads (inner : Level) : Prop where
  query : Reads [] inner.query
  source : Reads [] inner.source
  expression : Reads [] inner.expression
  negation : Reads [] inner.negation
  signed : Reads [] inner.signed

namespace LevelReads

variable {inner : Level} (h : LevelReads inner) {before : List Identifier}

/-! Subqueries, lists and windows. -/

include h

theorem subquery : Reads [] (subquery inner) := by
  refine .bind (.look fun _ => rfl) fun _ => ?_
  split
  · refine .bind .advance fun _ => ?_
    refine .bind h.query.attempt fun query? => ?_
    refine .bind .closeParen fun _ => ?_
    exact .ofOption (by simp [names])
  · exact .missing

theorem expressionList : Reads [] (expressionList inner) := .commaList h.expression

theorem orderItem : Reads [] (orderItem inner) := by
  refine .bind h.expression fun e => ?_
  refine .bind .accept fun _ => ?_
  split
  · exact .pure (by simp [names, OrderItem.outline, Node.mentions])
  · refine .bind .accept fun _ => ?_
    split <;> exact .pure (by simp [names, OrderItem.outline, Node.mentions])

theorem orderList : Reads [] (orderList inner) := .commaList h.orderItem

theorem argument : Reads [] (argument inner) := by
  refine .bind (.look fun _ => rfl) fun t => ?_
  split
  · exact .bind .advance fun _ => .pure
      (by simp [names, Expression.outline, Column.outline, Node.mentions])
  · exact .forget h.expression

theorem arguments : Reads [] (arguments inner) := by
  refine .bind .accept fun _ => ?_
  split
  · exact .pure (by simp [names])
  · refine .bind (.commaList h.argument) fun list => ?_
    exact .bind .closeParen fun _ => .pure (by simp [names])

theorem window : Reads [] (window inner) := by
  refine .bind .requirePunctuation fun _ => ?_
  refine .bind .accept fun _ => ?_
  refine .bind (.onlyIf (.bind .requireKeyword fun _ => .forget h.expressionList))
    fun partition? => ?_
  refine .bind .accept fun _ => ?_
  refine .bind (.onlyIf (.bind .requireKeyword fun _ => .forget h.orderList)) fun order? => ?_
  refine .bind (.look fun _ => rfl) fun _ => ?_
  refine .bind (.onlyIf .skipGroup) fun _ => ?_
  refine .bind .closeParen fun _ => .pure ?_
  cases partition? <;> cases order? <;> simp [names]

theorem call (name : QualifiedName) : Reads [] (call inner name) := by
  refine .bind .advance fun _ => ?_
  refine .bind .accept fun distinct => ?_
  refine .bind (.onlyIf .accept) fun _ => ?_
  refine .bind h.arguments fun list => ?_
  refine .bind .accept fun _ => ?_
  refine .bind (.onlyIf (.bind .accept fun _ => .forget .skipParenthesized)) fun _ => ?_
  refine .bind .accept fun windowed => ?_
  split
  · refine .bind h.window fun window => .pure ?_
    simp [names, Expression.outline, Node.mentions, List.flatMap_map]
  · refine .pure ?_
    simp [names, Expression.outline, Node.mentions, List.flatMap_map]

/-! Primary expressions. -/

theorem whenBranch : Reads [] (whenBranch inner) := by
  refine .bind .accept fun _ => ?_
  split
  · refine .bind h.expression fun condition => ?_
    refine .bind .requireKeyword fun _ => ?_
    exact .bind h.expression fun result => .pure (by simp [names])
  · exact .pure (by simp [names])

theorem caseExpression : Reads [] (caseExpression inner) := by
  refine .bind .advance fun _ => ?_
  refine .bind (.look fun _ => rfl) fun _ => ?_
  refine .bind (.forget h.expression.requiredIf) fun operand? => ?_
  refine .bind (.collect h.whenBranch) fun branches => ?_
  split
  · exact .missing
  · refine .bind .accept fun _ => ?_
    refine .bind h.expression.requiredIf fun otherwise? => ?_
    refine .bind .requireKeyword fun _ => .pure ?_
    cases operand? <;> cases otherwise? <;>
      simp [names, Expression.outline, Node.mentions, List.flatMap_assoc]

theorem castExpression : Reads [] (castExpression inner) := by
  refine .bind .advance fun _ => .bind .advance fun _ => ?_
  refine .bind (.forget h.expression) fun e => ?_
  refine .bind .requireKeyword fun _ => ?_
  refine .bind .dataType fun type => ?_
  exact .bind .closeParen fun _ => .pure (by simp [names, Expression.outline, Node.mentions])

theorem convertExpression : Reads [] (convertExpression inner) := by
  refine .bind .advance fun _ => .bind .requirePunctuation fun _ => ?_
  refine .bind .dataType fun type => .bind .requirePunctuation fun _ => ?_
  refine .bind (.forget h.expression) fun e => .bind .accept fun _ => ?_
  refine .bind h.expression.requiredIf fun style? => ?_
  refine .bind .closeParen fun _ => .pure ?_
  cases style? <;> simp [names, Expression.outline, Node.mentions]

theorem existsExpression : Reads [] (existsExpression inner) := by
  refine .bind .advance fun _ => .bind (.forget h.subquery) fun query => .pure ?_
  simp [names, Expression.outline, Node.mentions]

theorem parenthesized : Reads [] (parenthesized inner) := by
  refine .bind (.look fun _ => rfl) fun _ => ?_
  split
  · refine .bind (.forget h.subquery) fun query => .pure ?_
    simp [names, Expression.outline, Node.mentions]
  · refine .bind .advance fun _ => .bind h.expression.attempt fun e? => ?_
    refine .bind .closeParen fun _ => .handOn (.ofOption ?_) fun e => .pure ?_
    · simp [names]
    · simp [names, Expression.outline, Node.mentions]

theorem columnOrCall : Reads [] (columnOrCall inner) := by
  refine .bind (.look fun _ => rfl) fun location => .bind .qualifiedName fun name => ?_
  refine .bind (.look fun _ => rfl) fun _ => ?_
  split
  · exact .forget (h.call name)
  · refine .pure ?_
    simp [names, Expression.outline, Column.outline, Node.mentions, Function.comp_def]

theorem named (t next : Token) : Reads [] (named inner t next) := by
  dsimp only [Parser.named]
  split
  · exact h.castExpression
  · split
    · exact h.convertExpression
    · split
      · exact .bind .advance fun _ => .pure (by simp [names, Expression.outline, Node.mentions])
      · exact h.columnOrCall

theorem primary : Reads [] (primary inner) := by
  refine .bind (.look fun _ => rfl) fun t => .bind (.look fun _ => rfl) fun next => ?_
  split
  · exact .leaf (by simp [Expression.outline, Node.mentions])
  · exact .leaf (by simp [Expression.outline, Node.mentions])
  · exact .leaf (by simp [Expression.outline, Node.mentions])
  · exact .leaf (by simp [Expression.outline, Node.mentions])
  · exact h.caseExpression
  · exact h.convertExpression
  · exact h.existsExpression
  · split
    · exact .bind .advance fun _ => h.call _
    · exact .missing
  · split
    · exact .bind .advance fun _ => h.call _
    · exact .missing
  · exact h.parenthesized
  · exact h.named t next
  · exact .missing

/-! Operators. -/

theorem signs : Reads [] (Parser.signed inner) := by
  refine .bind (.operator? fun _ => rfl) fun op? => ?_
  cases op? with
  | none => exact h.primary
  | some op =>
      refine .bind (.forget h.signed) fun e => .pure ?_
      simp [names, Expression.outline, Node.mentions]

theorem multiplicative : Reads [] (multiplicative inner) := .binaries h.signs

theorem additive : Reads [] (additive inner) := .binaries h.multiplicative

theorem comparand : Reads [] (comparand inner) := by
  refine .bind (.look fun _ => rfl) fun quantified => .bind (.look fun _ => rfl) fun next => ?_
  split
  · refine .bind .advance fun _ => .bind (.forget h.subquery) fun query => .pure ?_
    simp [names, Expression.outline, Node.mentions]
  · exact .forget h.additive

theorem membership (left : Expression) (negated : Bool) :
    Reads (names left) (membership inner left negated) := by
  refine .bind (.look fun _ => rfl) fun _ => ?_
  split
  · refine .bind h.subquery.attempt fun query? => ?_
    cases query? with
    | none => exact .pure (by simp)
    | some query => exact .pure (by simp [names, Expression.outline, Node.mentions])
  · refine .bind .accept fun _ => ?_
    split
    · refine .bind h.expressionList fun list => .bind .closeParen fun _ => .pure ?_
      simp [names, Expression.outline, Node.mentions, List.flatMap_map]
    · exact .bind .reportMissing fun _ => .pure (by simp)

theorem range (left : Expression) (negated : Bool) :
    Reads (names left) (range inner left negated) := by
  refine .bind (.attempt (.bind h.additive fun low => .bind .requireKeyword fun _ =>
    .bind h.additive fun high => .pure ?_)) fun bounds? => ?_
  · simp [names]
  · cases bounds? with
    | none => exact .pure (by simp)
    | some bounds => exact .pure (by simp [names, Expression.outline, Node.mentions])

theorem pattern (left : Expression) (negated : Bool) :
    Reads (names left) (pattern inner left negated) := by
  refine .bind h.additive.attempt fun pattern? => ?_
  cases pattern? with
  | none => exact .pure (by simp)
  | some pattern =>
      refine .bind .accept fun _ => .bind (.onlyIf h.additive) fun escape? => .pure ?_
      cases escape? <;> simp [names, Expression.outline, Node.mentions]

theorem condition (left : Expression) : Reads (names left) (condition inner left) := by
  refine .bind (.look fun _ => rfl) fun next => ?_
  refine .bind .accept fun negated => ?_
  refine .bind .accept fun isIn => ?_
  split
  · simpa [names] using h.membership left negated
  · refine .bind .accept fun isBetween => ?_
    split
    · simpa [names] using h.range left negated
    · refine .bind .accept fun isLike => ?_
      split
      · simpa [names] using h.pattern left negated
      · exact .pure (by simp [names])

theorem predicate : Reads [] (predicate inner) := by
  refine .bind (.look fun _ => rfl) fun _ => ?_
  split
  · exact .forget h.existsExpression
  · refine .bind (.forget h.additive) fun left => ?_
    refine .bind (.operator? fun _ => rfl) fun op? => ?_
    cases op? with
    | some op =>
        refine .bind h.comparand.attempt fun right? => ?_
        cases right? with
        | none => exact .pure (by simp [names])
        | some right => exact .pure (by simp [names, Expression.outline, Node.mentions])
    | none =>
        refine .bind .accept fun _ => ?_
        split
        · simpa [names] using Reads.nullTest left
        · simpa [names] using h.condition left

theorem negations : Reads [] (Parser.negation inner) := by
  refine .bind .accept fun _ => ?_
  split
  · refine .bind (.forget h.negation) fun e => .pure ?_
    simp [names, Expression.outline, Node.mentions]
  · exact .forget h.predicate

theorem conjunction : Reads [] (conjunction inner) := .binaries h.negations

theorem disjunction : Reads [] (disjunction inner) := .binaries h.conjunction

end LevelReads

end QueryNames.Grammar.Parser
