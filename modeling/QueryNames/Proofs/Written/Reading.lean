import QueryNames.Proofs.Written.Operator

/-!
Reading written expressions. Main statement: with `n` levels left, a parser reads whatever is
written with parts nested `n` levels deep at most, and stops where the expression ends.
-/

namespace QueryNames.Grammar

open Grammar.Parser

/-- What reads an argument of a list. -/
def argumentParser (inner : Level) : (starred : Bool) → Parser Expression
  | true => argument inner
  | false => inner.expression

/-- The parsers with `n` levels left read the tokens of a part. -/
def Part.Yields (n : Nat) : (part : Part) → List Token → part.Tree → Prop
  | .at s, ts, e => s.Continues (level n) ts e
  | .argument starred, ts, e =>
      Parser.Yields (argumentParser (level n) starred) ts e Strength.disjunction.Stops
  | .list starred, ts, es =>
      Parser.Yields (commaList endsItem (argumentParser (level n) starred)) ts es EndsList
  | .branches, ts, bs => Parser.Yields (collect (whenBranch (level n))) ts bs EndsBranches
  | .operand, ts, e? => Parser.Yields (caseOperand (level n)) ts e? (·.kind = .keyword .when)
  | .clause k s, ts, e? => YieldsClause k (s.parser (level n)) s.Stops ts e?

variable {n : Nat} {ts us : List Token}

theorem argument_star {t : Token} {inner : Level} (is : t.kind = .star) {follow : Token → Prop} :
    Parser.Yields (argument inner) [t] (.column ⟨none, .wildcard, t.location⟩) follow := by
  intro s _
  have found : ((s.prepend [t]).cursor.current.kind == .star) = true := by simp [is]
  rw [argument, bind_current, if_pos found, bind_some (advance_prepend (by simp [is]))]
  rfl

theorem argument_expression {inner : Level} {e : Expression}
    (opens : (Part.at .disjunction).Opens ts)
    (yields : Parser.Yields inner.expression ts e Strength.disjunction.Stops) (starred : Bool) :
    Parser.Yields (argumentParser inner starred) ts e Strength.disjunction.Stops := by
  cases starred with
  | false => exact yields
  | true =>
      intro s stops
      have noStar : Next (ts ++ []) Strength.disjunction.Stops (·.kind ≠ .star) :=
        opens.next (fun _ begins => begins.kind_ne rfl) nofun
      rw [List.append_nil] at noStar
      have other : ((s.prepend ts).cursor.current.kind == .star) = false := by
        simpa using noStar.current stops
      rw [argumentParser, argument, bind_current, other, if_neg Bool.false_ne_true]
      exact yields s stops

theorem Written.yields {part : Part} {tree : part.Tree} (written : Written n part ts tree) :
    part.Yields n ts tree := by
  induction written with
  | leaf is => exact Strength.continues_of_yields rfl (primary_leaf is)
  | column named => exact Strength.continues_of_yields rfl (primary_column named)
  | emptyCall named opens closes =>
      apply Strength.continues_of_yields rfl
      apply primary_call named opens
      apply call_yields opens .absent _ (arguments_nil closes)
      show _ ∧ _
      rw [closes]
      exact ⟨nofun, nofun⟩
  | call named opens flag arguments closes ih =>
      apply Strength.continues_of_yields rfl
      apply primary_call named opens
      apply call_yields opens flag _ (arguments_list ih arguments.opens closes)
      apply arguments.opens.next _ nofun
      rintro t (⟨-, is⟩ | begins)
      · rw [is]
        exact ⟨nofun, nofun⟩
      · exact ⟨begins.kind_ne rfl, begins.kind_ne rfl⟩
  | case begins _ chosen _ ends compared' chosen' defaulted' =>
      apply Strength.continues_of_yields rfl
      refine primary_case begins compared' chosen.opens ?_ chosen' defaulted' ends
      rintro rfl
      cases chosen
  | cast is opens converted isAs named closes ih =>
      apply Strength.continues_of_yields rfl
      exact primary_cast is opens ih.yields isAs named closes
  | nested opens inside closes ih =>
      apply Strength.continues_of_yields rfl
      exact primary_nested opens inside.opens ih.yields closes
  | sign signs operand ih =>
      apply Strength.continues_of_yields rfl
      exact signed_sign signs ih.yields
  | chain joins _ _ front back => exact front.chain joins back.yields
  | comparison compares front back front' back' =>
      apply Strength.continues_of_yields rfl
      exact predicate_comparison front.opens front'.yields compares back.opens back'.yields
  | isNull front isIs flag isNull ih =>
      apply Strength.continues_of_yields rfl
      exact predicate_isNull front.opens ih.yields isIs flag isNull
  | inList front flag isIn opens members closes front' members' =>
      apply Strength.continues_of_yields rfl
      apply predicate_negatable front.opens front'.yields flag isIn (.inl rfl)
      exact negatable_in isIn opens members.opens members' closes
  | between front flag isBetween _ isAnd _ front' lower upper =>
      apply Strength.continues_of_yields rfl
      apply predicate_negatable front.opens front'.yields flag isBetween (.inr (.inl rfl))
      exact (negatable_between isBetween lower.yields isAnd upper.yields).weaken
        fun _ stops => stops.mono (by decide)
  | like front flag isLike _ _ front' matched escaped =>
      apply Strength.continues_of_yields rfl
      apply predicate_negatable front.opens front'.yields flag isLike (.inr (.inr rfl))
      exact negatable_like isLike matched.yields escaped
  | not is operand ih =>
      apply Strength.continues_of_yields rfl
      exact negation_not is ih.yields
  | tighter written ih => exact Strength.continues_of_tighter written.opens ih
  | star is => exact argument_star is
  | argument written ih => exact argument_expression written.opens ih.yields _
  | last written ih => exact commaList_one (ih.weaken fun _ => Strength.stops_of_endsItem)
  | item written isComma rest ih rest' =>
      exact commaList_cons isComma (ih.weaken fun _ => Strength.stops_of_endsItem) rest'
  | noBranch => exact branches_nil
  | branch isWhen _ isThen _ rest asked given rest' =>
      exact branches_cons isWhen asked.yields isThen given.yields rest.opens rest'
  | noOperand => exact caseOperand_absent
  | operand written ih => exact caseOperand_present written.opens ih.yields
  | noClause => exact .absent
  | clause is written ih => exact .present is ih.yields

theorem Written.expression {e : Expression} (written : Written n (.at .disjunction) ts e) :
    Parser.Yields (level (n + 1)).expression ts e Strength.disjunction.Stops :=
  Strength.Continues.yields written.yields

end QueryNames.Grammar
