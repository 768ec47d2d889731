import QueryNames.Proofs.Rendition.Rules
import QueryNames.Proofs.Stepwise.Expression

/-!
Expressions read from a rendition, production by production.
-/

namespace QueryNames.Grammar

open Grammar.Parser

/-- The parsers of the level inside read renditions of trees from renditions of states. -/
class Level.Renders (f : Rendition) (inner : Level) : Prop where
  query : Parser.Renders f inner.query inner.query
  source : Parser.Renders f inner.source inner.source
  expression : Parser.Renders f inner.expression inner.expression
  negation : Parser.Renders f inner.negation inner.negation
  signed : Parser.Renders f inner.signed inner.signed

namespace Parser.Renders

variable {f : Rendition} (inner : Level) [inner.Stepwise] [h : inner.Renders f]

instance : Renders f inner.query inner.query := h.query

instance : Renders f inner.source inner.source := h.source

instance : Renders f inner.expression inner.expression := h.expression

instance : Renders f inner.negation inner.negation := h.negation

instance : Renders f inner.signed inner.signed := h.signed

theorem operator? [Renderable ω] (fixed : ∀ op : ω, render f op = op)
    (table : TokenKind → Option ω) :
    Renders f (Parser.operator? table) (Parser.operator? table) := by
  refine next fun t => ?_
  rw [Token.kind_render]
  cases table t.kind with
  | none => exact pure rfl
  | some op => exact next fun _ => pure (congrArg some (fixed op))

theorem binaries {operand : Parser Expression} [Stepwise operand]
    (each : Renders f operand operand) (table : TokenKind → Option BinaryOperator) :
    Renders f (Parser.chainLeft operand (Parser.operator? table) Expression.binary)
      (Parser.chainLeft operand (Parser.operator? table) Expression.binary) :=
  chainLeft each (operator? (fun _ => rfl) table) fun _ _ _ => rfl

/-! Subqueries, lists and windows. -/

instance : Renders f (subquery inner) (subquery inner) :=
  next fun _ => ite _
    (next fun _ => bind (attempt h.query) fun _ => next fun _ => inferInstance) inferInstance

instance : Renders f (expressionList inner) (expressionList inner) :=
  commaList (fun _ => rfl) h.expression

instance : Renders f (orderItem inner) (orderItem inner) :=
  next fun _ => next fun _ => ite _ (pure rfl) (next fun _ => ite _ (pure rfl) (pure rfl))

instance : Renders f (orderList inner) (orderList inner) :=
  commaList (endsOrderItem_render f) inferInstance

instance : Renders f (argument inner) (argument inner) :=
  next fun _ => ite _ (next fun _ => pure rfl) h.expression

instance : Renders f (arguments inner) (arguments inner) :=
  next fun _ => ite _ (pure rfl)
    (bind (commaList (fun _ => rfl) inferInstance) fun _ => next fun _ => pure rfl)

instance : Renders f (window inner) (window inner) := by
  refine next fun _ => next fun partition => ?_
  refine bind (onlyIf _ (next fun _ => inferInstance)) fun partition? => ?_
  refine next fun order => bind (onlyIf _ (next fun _ => inferInstance)) fun order? => ?_
  refine bind (check fun t => ?_) fun _ => ?_
  · rw [Token.isWord_render, Token.isWord_render]
  · refine bind (onlyIf _ inferInstance) fun _ => next fun _ => pure ?_
    rw [render_window, getD_render, getD_render]

instance (name : QualifiedName) : Renders f (call inner name) (call inner (render f name)) := by
  refine next fun _ => next fun distinct => bind (onlyIf _ inferInstance) fun _ => ?_
  refine next fun list => next fun within => ?_
  refine bind (onlyIf _ (next fun _ => inferInstance)) fun _ => next fun hasWindow => ite _ ?_ ?_
  · exact next fun window => pure (render_function f name list distinct (some window))
  · exact pure (render_function f name list distinct none)

/-! Primary expressions. -/

instance : Renders f (whenBranch inner) (whenBranch inner) :=
  next fun _ => ite _
    (next fun _ => next fun _ => next fun _ => pure rfl) (pure rfl)

instance : Renders f (caseExpression inner) (caseExpression inner) := by
  refine next fun _ => bind (check fun _ => rfl) fun _ => ?_
  refine bind (requiredIf _ h.expression) fun operand? => ?_
  refine bind (collect inferInstance) fun branches => ?_
  rw [isEmpty_render]
  refine ite _ inferInstance (next fun _ => bind (requiredIf _ h.expression) fun otherwise? => ?_)
  exact next fun _ => pure (render_case f operand? branches otherwise?)

instance : Renders f (castExpression inner) (castExpression inner) :=
  next fun _ => next fun _ => next fun e => next fun _ => next fun type => next fun _ =>
    pure (render_cast f e type none)

instance : Renders f (convertExpression inner) (convertExpression inner) := by
  refine next fun _ => next fun _ => next fun type => next fun _ => next fun e => ?_
  refine next fun _ => bind (requiredIf _ h.expression) fun style? => next fun _ => ?_
  exact pure (render_cast f e type style?)

instance : Renders f (existsExpression inner) (existsExpression inner) :=
  next fun _ => next fun _ => pure rfl

instance : Renders f (parenthesized inner) (parenthesized inner) :=
  next fun _ => ite _ (next fun _ => pure rfl)
    (next fun _ => bind (attempt h.expression) fun _ => next fun _ => next fun _ => pure rfl)

instance : Renders f (columnOrCall inner) (columnOrCall inner) :=
  next fun _ => next fun _ => bind (check fun _ => rfl) fun _ => ite _ inferInstance (pure rfl)

instance (t next : Token) :
    Renders f (named inner t next) (named inner (render f t) (render f next)) := by
  unfold named
  simp only [Token.isPlainName_render, Token.isPunctuation_render, Token.isWord_render]
  refine ite _ inferInstance (ite _ inferInstance (ite _ ?_ inferInstance))
  exact Renders.next fun _ => pure rfl

theorem leaf {e e' : Expression} (same : render f e = e') :
    Renders f (Parser.leaf e) (Parser.leaf e') :=
  next fun _ => pure same

instance : Renders f (primary inner) (primary inner) := by
  refine next fun t => next fun following => ?_
  have called (name : QualifiedName) :
      Renders f (if following.isPunctuation .leftParen then do
          advance
          call inner name
        else missing .expression)
      (if (render f following).isPunctuation .leftParen then do
          advance
          call inner (render f name)
        else missing .expression) :=
    ite _ (next fun _ => inferInstance) inferInstance
  simp only [Token.kind_render]
  split
  · exact leaf rfl
  · exact leaf (congrArg (Expression.literal ∘ .string) (stringValue_render f t.text).symm)
  · exact leaf rfl
  · exact leaf rfl
  · infer_instance
  · infer_instance
  · infer_instance
  · exact called (.ofIdentifier ⟨t.text, none, t.location⟩)
  · exact called (.ofIdentifier ⟨t.text, none, t.location⟩)
  · infer_instance
  · infer_instance
  · infer_instance

/-! Operators. -/

instance : Renders f (signed inner) (signed inner) :=
  bindOption (operator? (fun _ => rfl) _) inferInstance fun _ => next fun _ => pure rfl

instance : Renders f (multiplicative inner) (multiplicative inner) := binaries inferInstance _

instance : Renders f (additive inner) (additive inner) := binaries inferInstance _

instance : Renders f (comparand inner) (comparand inner) := by
  refine bind (check fun t => ?_) fun _ => next fun next => ite _ ?_ inferInstance
  · rw [Token.isWord_render, Token.isWord_render, Token.isKeyword_render]
  · exact Renders.next fun _ => Renders.next fun _ => pure rfl

instance (left : Expression) (negated : Bool) :
    Renders f (membership inner left negated) (membership inner (render f left) negated) := by
  refine next fun _ => ite _ ?_ (next fun _ => ite _ ?_ (next fun _ => pure rfl))
  · exact bindOption (attempt inferInstance) (pure rfl) fun query => pure rfl
  · exact next fun list => next fun _ => pure (render_inList f left list negated)

instance (left : Expression) (negated : Bool) :
    Renders f (range inner left negated) (range inner (render f left) negated) :=
  bindOption (attempt (next fun _ => next fun _ => next fun _ => pure rfl)) (pure rfl)
    fun _ => pure rfl

instance (left : Expression) (negated : Bool) :
    Renders f (pattern inner left negated) (pattern inner (render f left) negated) := by
  refine bindOption (attempt inferInstance) (pure rfl) fun pattern => ?_
  exact next fun _ => bind (onlyIf _ inferInstance) fun escape? =>
    pure (render_like f left pattern escape? negated)

instance (left : Expression) : Renders f (nullTest left) (nullTest (render f left)) :=
  next fun _ => bind (succeeds inferInstance) fun _ => ite _ (pure rfl) (pure rfl)

instance (left : Expression) : Renders f (condition inner left) (condition inner (render f left)) :=
  next fun _ => bind (accept fun _ => rfl) fun _ => next fun _ => ite _ inferInstance
    (next fun _ => ite _ inferInstance (next fun _ => ite _ inferInstance (pure rfl)))

instance : Renders f (predicate inner) (predicate inner) := by
  refine bind (check fun _ => rfl) fun _ => ite _ inferInstance (next fun left => ?_)
  refine bindOption (operator? (fun _ => rfl) _) ?_ fun op => ?_
  · exact next fun _ => ite _ inferInstance inferInstance
  · exact bindOption (attempt inferInstance) (pure rfl) fun right => pure rfl

instance : Renders f (negation inner) (negation inner) :=
  next fun _ => ite _ (next fun _ => pure rfl) inferInstance

instance : Renders f (conjunction inner) (conjunction inner) := binaries inferInstance _

instance : Renders f (disjunction inner) (disjunction inner) := binaries inferInstance _

end Parser.Renders

end QueryNames.Grammar
