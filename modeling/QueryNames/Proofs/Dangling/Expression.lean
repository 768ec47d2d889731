import QueryNames.Proofs.Blame.Grammar
import QueryNames.Proofs.Dangling.Tally

/-!
Expressions before the end of an item, or an operator that nothing follows. Main statements: what an
expression finds does not depend on what stands there, and only what it is made of by operators
reads one.
-/

namespace QueryNames.Grammar

open Grammar.Parser

set_option synthInstance.maxSize 2048

variable {x : Overhang}

/-- What the parsers of the level inside do before what follows. -/
class Level.Dangles (x : Overhang) (inner : Level) : Prop where
  query : Parser.Tallies x inner.query
  source : Parser.Tallies x inner.source
  expression : Parser.Dangles x 0 inner.expression
  negation : Parser.Dangles x 0 inner.negation
  signed : Parser.Settles x 0 inner.signed

namespace Parser

/-! Names and data types. -/

instance (expected : Expected) : Settles x 0 (requireIdentifier expected) := by
  apply Settles.next
  rintro (_ | name) <;> infer_instance

instance : Settles x 0 partBehind := by
  apply Settles.next
  rintro (_ | part) <;> infer_instance

instance : Settles x 0 namePart := by
  rw [namePart_eq]
  infer_instance

instance : Settles x 0 qualifiedName := by
  rw [qualifiedName_eq]
  apply Settles.next
  rintro (_ | first) <;> infer_instance

instance : Tallies x typeArgument := by
  unfold typeArgument
  infer_instance

instance : Tallies x typeArguments := by
  unfold typeArguments
  infer_instance

instance : Tallies x dataType := by
  unfold dataType
  infer_instance

instance (e : Expression) : Settles x 1 (leaf e) := by
  unfold leaf
  infer_instance

instance (left : Expression) : Settles x 0 (nullTest left) := by
  unfold nullTest
  infer_instance

section Level

variable (inner : Level)

/-- Nothing is called by what stands behind the expression. -/
theorem named_last {t next : Token} (opens : next.isPunctuation .leftParen = false)
    (period : next.isPunctuation .period = false) :
    named inner t next =
      if (t.isPlainName && niladicFunctions.any t.isWord) = true then do
        Parser.advance
        return .niladic t.text
      else columnOrCall inner := by
  simp [named, opens, period]

theorem condition_nothing {left : Expression} {s : State}
    (nothing : ∀ k ∈ [Keyword.not, .in, .between, .like], s.cursor.current.isKeyword k = false) :
    condition inner left s = (some left, s) := by
  simp only [List.forall_mem_cons] at nothing
  obtain ⟨noNot, noIn, noBetween, noLike, -⟩ := nothing
  have looks : peek 1 s = (some (s.cursor.peek 1), s) := rfl
  rw [condition, bind_some looks, bind_some (accept_absent (by rw [noNot, Bool.false_and])),
    acceptKeyword, bind_some (accept_absent noIn), if_neg Bool.false_ne_true,
    acceptKeyword, bind_some (accept_absent noBetween), if_neg Bool.false_ne_true,
    acceptKeyword, bind_some (accept_absent noLike)]
  rfl

theorem testTail_rests (left : Expression) : Rests (testTail inner left) left := by
  intro t reported ends
  have noIs : acceptKeyword .is ⟨⟨t, []⟩, reported⟩ = (some false, ⟨⟨t, []⟩, reported⟩) :=
    acceptKeyword_absent ends nofun
  rw [testTail, bind_some noIs, if_neg Bool.false_ne_true]
  exact condition_nothing inner fun _ _ => by simp [Token.isKeyword, ends]

theorem predicateTail_rests (left : Expression) : Rests (predicateTail inner left) left := by
  intro t reported ends
  have noOperator :
      operator? comparison? ⟨⟨t, []⟩, reported⟩ = (some none, ⟨⟨t, []⟩, reported⟩) := by
    simp only [operator?, current, look, bind_apply, ends]
    rfl
  rw [predicateTail, bind_some noOperator]
  exact testTail_rests inner left t reported ends

end Level

variable (inner : Level) [inner.Stepwise] [inner.Answers] [h : inner.Dangles x]

instance : Tallies x inner.query := h.query

instance : Tallies x inner.source := h.source

instance : Dangles x 0 inner.expression := h.expression

instance : Dangles x 0 inner.negation := h.negation

instance : Settles x 0 inner.signed := h.signed

/-! Subqueries, lists and windows. -/

instance : Settles x 0 (subquery inner) := by
  unfold subquery
  infer_instance

instance : Tallies x (expressionList inner) := inferInstanceAs (Tallies x (commaList _ _))

instance : Dangles x 0 (orderItem inner) := by
  unfold orderItem
  infer_instance

instance : Tallies x (orderList inner) := inferInstanceAs (Tallies x (commaList _ _))

instance : Tallies x (argument inner) := by
  unfold argument
  infer_instance

instance : Needs x (arguments inner) where
  complains := by
    have absent : acceptPunctuation .rightParen ⟨x.left, []⟩ = (some false, ⟨x.left, []⟩) :=
      accept_absent (x.stop_isPunctuation _)
    have list : Needs x (do
        let list ← commaList endsItem (argument inner)
        closeParen
        return list : Parser (List Expression)) := inferInstance
    rw [arguments, bind_some absent, if_neg Bool.false_ne_true]
    exact list.complains

instance : Settles x 0 (arguments inner) := by
  have inside : Settles x 1 (arguments inner) := by
    unfold arguments
    infer_instance
  exact .ofNeeds inside

instance : Settles x 0 (window inner) := by
  unfold window
  infer_instance

instance (name : QualifiedName) : Settles x 1 (call inner name) := by
  unfold call
  infer_instance

/-! Primary expressions. -/

instance : Tallies x (whenBranch inner) := by
  unfold whenBranch
  infer_instance

instance : Settles x 1 (caseExpression inner) := by
  unfold caseExpression
  infer_instance

instance : Settles x 2 (castExpression inner) := by
  unfold castExpression
  infer_instance

instance : Settles x 1 (convertExpression inner) := by
  unfold convertExpression
  infer_instance

instance : Settles x 1 (existsExpression inner) := by
  unfold existsExpression
  infer_instance

instance : Settles x 1 (parenthesized inner) := by
  unfold parenthesized
  infer_instance

instance : Settles x 1 (columnOrCall inner) := by
  unfold columnOrCall
  infer_instance

instance (t next : Token) : Settles x 2 (named inner t next) := by
  unfold named
  infer_instance

omit [inner.Stepwise] [inner.Answers] h in
theorem named_edges (t : Token) : named inner t x.stop = named inner t x.next := by
  rw [named_last inner (x.stop_isPunctuation _) (x.stop_isPunctuation _),
    named_last inner (x.next_isPunctuation rfl) (x.next_isPunctuation rfl)]

instance (t : Token) : Settles x 1 (named inner t x.stop) := by
  rw [named_last inner (x.stop_isPunctuation _) (x.stop_isPunctuation _)]
  infer_instance

instance : Misses (primary inner) where
  run t ends := by
    obtain ⟨kind, text, location⟩ := t
    obtain rfl : kind = .endOfInput := ends
    exact ⟨_, rfl⟩

instance : Settles x 0 (primary inner) := by
  apply Settles.ofNeeds
  apply Settles.token
  intro t
  apply Settles.peek
  · simp only [x.stop_isPunctuation, x.next_isPunctuation (p := .leftParen) rfl, named_edges]
  · simp only [x.stop_isPunctuation]
    split <;> infer_instance
  · intro next
    split <;> infer_instance

/-! Operators. -/

instance (table : TokenKind → Option ω) : Settles x 1 (operator? table) := by
  apply Settles.token
  intro t
  cases table t.kind <;> infer_instance

instance : Misses (signed inner) where
  run t ends := by
    obtain ⟨kind, text, location⟩ := t
    obtain rfl : kind = .endOfInput := ends
    exact ⟨_, rfl⟩

/-- A sign is none of the expression that ends before it. -/
instance : Settles x 0 (signed inner) := by
  apply Settles.ofNeeds
  apply Settles.next
  rintro (_ | op) <;> infer_instance

instance : Misses (multiplicative inner) := inferInstanceAs (Misses (chainLeft _ _ _))

instance : Dangles x 0 (multiplicative inner) :=
  Dangles.chainLeft rfl fun _ known => by simp [TokenKind.joins, known]

instance : Misses (additive inner) := inferInstanceAs (Misses (chainLeft _ _ _))

instance : Dangles x 0 (additive inner) :=
  Dangles.chainLeft rfl fun _ known => by simp [TokenKind.joins, known]

instance : Misses (comparand inner) where
  run t ends := by
    obtain ⟨kind, text, location⟩ := t
    obtain rfl : kind = .endOfInput := ends
    exact Misses.run (p := additive inner) ⟨.endOfInput, text, location⟩ rfl

instance : Dangles x 1 (quantifiedOperand inner true) := by
  apply Dangles.peek
  · simp only [x.stop_isPunctuation, x.next_isPunctuation (p := .leftParen) rfl]
  · simp only [x.stop_isPunctuation]
    infer_instance
  · infer_instance

instance : Dangles x 0 (quantifiedOperand inner false) :=
  inferInstanceAs (Dangles x 0 (additive inner))

instance : Dangles x 0 (comparand inner) := by
  rw [comparand_eq]
  infer_instance

instance (left : Expression) (negated : Bool) :
    Settles x 2 (memberQuery inner left negated) := by
  apply Settles.next
  rintro (_ | query) <;> infer_instance

instance (left : Expression) (negated : Bool) :
    Settles x 0 (membership inner left negated) := by
  rw [membership_eq]
  infer_instance

instance (left : Expression) (negated : Bool) : Dangles x 0 (range inner left negated) := by
  have bounds : Dangles x 0 (do
      let low ← additive inner
      requireKeyword .and
      let high ← additive inner
      return (low, high)) := Dangles.closing
  apply Dangles.next <;> rintro (_ | bounds) <;> infer_instance

instance (left : Expression) (negated : Bool) : Dangles x 0 (pattern inner left negated) := by
  apply Dangles.next <;> rintro (_ | pattern) <;> infer_instance

instance (left : Expression) : Dangles x 0 (condition inner left) where
  runs {c d} paired _ := by
    rcases paired.view with ⟨rfl, rfl⟩ | ⟨t, c', d', goesOn, rfl, rfl, rest⟩
    · have nothing : condition inner left ⟨x.left, []⟩ = (some left, ⟨x.left, []⟩) :=
        condition_nothing inner fun _ _ => by simp [Token.isKeyword, Overhang.left, x.isStop]
      have none_ : condition inner left ⟨x.right, []⟩ = (some left, ⟨x.right, []⟩) := by
        apply condition_nothing
        simp only [List.forall_mem_cons]
        exact ⟨Rejects.next (q := (·.isKeyword .not)) x,
          Rejects.next (q := (·.isKeyword .in)) x,
          Rejects.next (q := (·.isKeyword .between)) x,
          Rejects.next (q := (·.isKeyword .like)) x, nofun⟩
      exact .inr (.inl (alike nothing none_ paired))
    · have inside : Dangles x 1 (condition inner left) := by
        apply Dangles.peek
        · have edges (k : Keyword) [Unset k.joins] : x.stop.isKeyword k = x.next.isKeyword k :=
            (Rejects.stop (q := (·.isKeyword k)) x).trans (Rejects.next x).symm
          simp only [edges .in, edges .between, edges .like]
        · infer_instance
        · infer_instance
      exact inside.runs paired (.step goesOn (.zero c'))

instance : Misses (predicate inner) where
  run t ends := by
    obtain ⟨kind, text, location⟩ := t
    obtain rfl : kind = .endOfInput := ends
    obtain ⟨complaint, run⟩ := Misses.run (p := additive inner) ⟨.endOfInput, text, location⟩ rfl
    have noExists : check (·.isKeyword .exists) ⟨⟨⟨.endOfInput, text, location⟩, []⟩, []⟩ =
        (some false, ⟨⟨⟨.endOfInput, text, location⟩, []⟩, []⟩) := rfl
    exact ⟨complaint, by
      rw [predicate, bind_some noExists, if_neg Bool.false_ne_true, bind_apply, run]⟩

instance (left : Expression) (op : BinaryOperator) :
    Dangles x 0 (comparisonTail inner left op) := by
  apply Dangles.next <;> rintro (_ | right) <;> infer_instance

instance (left : Expression) : Dangles x 0 (testTail inner left) := by
  unfold testTail
  infer_instance

instance (left : Expression) : Dangles x 0 (predicateTail inner left) := by
  have tested : Dangles x 0 (testTail inner left) := inferInstance
  have compared (op : BinaryOperator) : Dangles x 0 (comparisonTail inner left op) := inferInstance
  exact @Dangles.operator _ _ _ _ _ left rfl (fun _ known => by simp [TokenKind.joins, known])
    (testTail_rests inner left) (fun op => Dangles.misses_attempt rfl) tested compared

instance (left : Expression) : Idles (predicateTail inner left) :=
  ⟨left, predicateTail_rests inner left⟩

instance : Dangles x 0 (predicate inner) := by
  rw [predicate_eq]
  infer_instance

instance : Misses (negation inner) where
  run t ends := by
    obtain ⟨kind, text, location⟩ := t
    obtain rfl : kind = .endOfInput := ends
    exact Misses.run (p := predicate inner) ⟨.endOfInput, text, location⟩ rfl

instance : Dangles x 0 (negation inner) := by
  unfold negation
  infer_instance

instance : Misses (conjunction inner) := inferInstanceAs (Misses (chainLeft _ _ _))

instance : Dangles x 0 (conjunction inner) :=
  Dangles.chainLeft rfl fun _ known => by simp [TokenKind.joins, known]

instance : Dangles x 0 (disjunction inner) :=
  Dangles.chainLeft rfl fun _ known => by simp [TokenKind.joins, known]

end Parser

end QueryNames.Grammar
