import QueryNames.Proofs.Rendition.Expression
import QueryNames.Proofs.Stepwise.Query

/-!
Sources, queries and scripts read from a rendition. Main statement: the rendition of a script is
read from the rendition of its tokens, with the renditions of all complaints.
-/

namespace QueryNames.Grammar

open Grammar.Parser

namespace Parser.Renders

variable {f : Rendition}

instance : Renders f tableLabel tableLabel := by
  refine next fun _ => ite _ ?_ (bind (check fun t => t.isWord_render f _) fun _ => ?_)
  · exact bindOption (attempt inferInstance) (next fun _ => pure rfl) fun _ => pure rfl
  · exact ite _ (pure rfl) (attempt inferInstance)

instance : Renders f skipHints skipHints := by
  refine next fun following => bind (accept fun _ => rfl) fun _ => ?_
  refine bind (onlyIf _ inferInstance) fun _ => next fun _ => ?_
  exact bind (onlyIf _ (skipUntil fun _ => rfl)) fun _ => pure rfl

instance : Renders f joinOperator? joinOperator? := by
  refine next fun t => next fun following => ?_
  rw [joinKind?_render]
  cases joinKind? t following with
  | none => exact pure rfl
  | some kind =>
      refine ite _ (next fun _ => next fun _ => pure rfl) (next fun _ => ite _ (pure rfl) ?_)
      refine next fun _ => next fun _ => bind (accept (isJoinHint_render f)) fun _ => ?_
      exact bind (succeeds inferInstance) fun _ => pure rfl

instance : Renders f intoClause intoClause := by
  refine next fun _ => ite _ (bind (attempt inferInstance) fun name? => ?_) (pure rfl)
  rw [isSome_render]
  exact bind (finishClause _) fun _ => pure rfl

instance : Renders f skipOptions skipOptions := by
  refine next fun _ => bind (onlyIf _ (skipUntil fun _ => rfl)) fun _ => next fun _ => ?_
  refine bind (onlyIf _ (bind (check fun _ => rfl) fun _ => ?_)) fun _ => pure rfl
  exact ite _ inferInstance inferInstance

instance : Renders f setOperator? setOperator? :=
  next fun _ => ite _ (next fun _ => ite _ (pure rfl) (pure rfl))
    (next fun _ => ite _ (pure rfl) (next fun _ => ite _ (pure rfl) (pure rfl)))

instance : Renders f columnLabel columnLabel := by
  refine next fun explicit => next fun t => ?_
  simp only [Token.kind_render]
  split
  · exact attempt inferInstance
  · refine next fun _ => pure ?_
    exact congrArg (fun value => some (Identifier.mk value (some .single) (f.place t.location)))
      (stringValue_render f t.text).symm
  · exact bind (onlyIf _ inferInstance) fun _ => pure rfl

instance : Renders f qualifiedStar qualifiedStar := by
  rw [qualifiedStar_eq]
  refine next fun location => bind (collect ?_) fun parts => next fun _ => pure ?_
  · exact bindOption (attempt inferInstance) (pure rfl) fun part => next fun _ => pure rfl
  · cases parts <;> rfl

instance : Renders f commonTableHead commonTableHead :=
  next fun _ => next fun _ => next fun _ => next fun _ => pure rfl

variable (inner : Level) [inner.Stepwise] [h : inner.Renders f]

/-! Table sources. -/

instance : Renders f (derivedTable inner) (derivedTable inner) := by
  refine next fun _ => bind (attempt h.query) fun query? => next fun _ => next fun label => ?_
  rw [isNone_render]
  refine bind (onlyIf _ inferInstance) fun _ => next fun columns => ?_
  exact next fun query => pure rfl

instance : Renders f (parenthesizedSource inner) (parenthesizedSource inner) :=
  next fun _ => bind (attempt h.source) fun _ => next fun _ => next fun _ => pure rfl

instance : Renders f (namedSource inner) (namedSource inner) := by
  refine next fun name => next fun _ => ite _ ?_ ?_
  · exact next fun list => next fun label => pure (render_tableFunction f name list label)
  · exact next fun label => next fun _ => pure rfl

instance : Renders f (table inner) (table inner) := by
  refine next fun t => ?_
  simp only [Token.kind_render]
  split
  · exact next fun _ => ite _ inferInstance inferInstance
  · exact next fun _ => next fun label => pure rfl
  · infer_instance
  · infer_instance

instance (kind : JoinKind) : Renders f (joinCondition inner kind) (joinCondition inner kind) := by
  refine ite _ (pure rfl) (bind (succeeds inferInstance) fun _ => ite _ ?_ (pure rfl))
  refine bind (attempt h.expression) fun condition? => ?_
  rw [isNone_render]
  exact bind (onlyIf _ (skipUntil fun _ => rfl)) fun _ => pure rfl

instance : Renders f (skipJoin inner) (skipJoin inner) :=
  bind (skipUntil fun _ => rfl) fun _ => next fun _ =>
    bind (onlyIf _ h.expression) fun _ => pure rfl

instance (left : TableSource) : Renders f (join inner left) (join inner (render f left)) := by
  refine next fun kind? => ?_
  cases kind? with
  | none => exact pure rfl
  | some kind =>
      refine bindOption (attempt inferInstance) (next fun _ => pure rfl) fun right => ?_
      refine bind (q := joinCondition inner kind) inferInstance fun condition? => pure ?_
      exact congrArg (·, true) (render_joined f left right kind condition?)

instance : Renders f (tableSource inner) (tableSource inner) :=
  next fun first => iterate (fun _ => inferInstance) first

instance : Renders f (sourceList inner) (sourceList inner) :=
  commaList (fun _ => rfl) inferInstance

/-! Clauses. -/

instance : Renders f (selectItem inner) (selectItem inner) := by
  refine next fun t => next fun following => ite _ (next fun _ => pure rfl) (ite _ ?_ (ite _ ?_ ?_))
  · exact bind (attempt inferInstance) fun label? => next fun _ => next fun e => pure rfl
  · exact next fun _ => next fun _ => next fun e => pure rfl
  · refine bind (look fun c => Cursor.startsWithQualifiedStar_render f c.tokens) fun _ => ?_
    exact ite _ inferInstance (next fun e => next fun label => pure rfl)

instance : Renders f (selectList inner) (selectList inner) :=
  bind (check fun _ => rfl) fun _ =>
    ite _ (next fun _ => pure rfl) (commaList (fun _ => rfl) inferInstance)

instance : Renders f (topQuantity inner) (topQuantity inner) :=
  next fun _ => ite _
    (bind (attempt h.expression) fun _ => next fun _ => inferInstance) inferInstance

instance : Renders f (top inner) (top inner) := by
  refine next fun _ => next fun quantity => next fun percent => next fun following => ?_
  refine bind (accept fun t => ?_) fun withTies => ?_
  · rw [Token.isKeyword_render, Token.isWord_render]
  · exact bind (onlyIf _ inferInstance) fun _ => pure rfl

instance : Renders f (fromClause inner) (fromClause inner) :=
  next fun _ => ite _ inferInstance (pure rfl)

instance (k : Keyword) : Renders f (expressionClause inner k) (expressionClause inner k) := by
  refine next fun _ => ite _ (bind (attempt h.expression) fun e? => ?_) (pure rfl)
  rw [isSome_render]
  exact bind (finishClause _) fun _ => pure rfl

instance : Renders f (groupClause inner) (groupClause inner) := by
  refine next fun _ => ite _ ?_ (pure rfl)
  refine bind (attempt (next fun _ => next fun _ => inferInstance)) fun list? => ?_
  exact bind (finishClause _) fun _ => pure (getD_render f list?).symm

instance : Renders f (orderClause inner) (orderClause inner) := by
  refine next fun _ => ite _ ?_ (pure rfl)
  refine bind (attempt (next fun _ => inferInstance)) fun list? => next fun _ => ?_
  refine bind (onlyIf _ (skipUntil fun _ => rfl)) fun _ => ?_
  exact bind (finishClause _) fun _ => pure (getD_render f list?).symm

instance : Renders f (selectQuery inner) (selectQuery inner) := by
  refine next fun location => next fun _ => next fun distinct => ?_
  refine bind (onlyIf _ inferInstance) fun _ => bind (check fun _ => rfl) fun _ => ?_
  refine bind (onlyIf _ inferInstance) fun top? => next fun items => next fun into => ?_
  refine next fun sources => next fun condition => next fun groupBy => next fun having => ?_
  exact next fun orderBy => next fun _ => pure (render_query f _)

/-! Queries. -/

instance : Renders f (queryTerm inner) (queryTerm inner) := by
  refine bind (check fun _ => rfl) fun _ => ite _ inferInstance (next fun _ => ite _ ?_ ?_)
  · exact next fun _ => bind (attempt h.query) fun _ => next fun _ => inferInstance
  · infer_instance

instance : Renders f (queryChain inner) (queryChain inner) := by
  refine chainRight inferInstance inferInstance fun left operator right => ?_
  rw [render_query f left, render_query f { left with setOperation := some ⟨operator, right⟩ }]
  rfl

instance : Renders f (commonTableQuery inner) (commonTableQuery inner) :=
  next fun _ => ite _ h.query inferInstance

instance : Renders f (commonTable inner) (commonTable inner) := by
  refine bindOption (attempt inferInstance) ?_ fun ⟨name, columns⟩ => ?_
  · exact bind (skipUntil fun _ => rfl) fun _ => pure rfl
  · refine bind (attempt inferInstance) fun query? => next fun _ => next fun more => pure ?_
    cases query? <;> rfl

instance : Renders f (commonTables inner) (commonTables inner) :=
  next fun _ => ite _ (collect inferInstance) (pure rfl)

instance : Renders f (queryStatement inner) (queryStatement inner) := by
  refine next fun location => next fun tables => bindOption (attempt inferInstance) ?_ fun q => ?_
  · rw [isEmpty_render]
    exact ite _ inferInstance (pure (render_query f _))
  · refine pure ?_
    rw [render_query, render_query]

end Parser.Renders

/-- At every level of nesting. -/
instance renders_level (f : Rendition) (n : Nat) : (level n).Renders f := by
  induction n with
  | zero =>
      exact ⟨.tooDeep fun _ => rfl, .tooDeep fun _ => rfl, .tooDeep fun _ => rfl,
        .tooDeep fun _ => rfl, .tooDeep fun _ => rfl⟩
  | succ n ih =>
      exact ⟨inferInstanceAs (Renders f (queryStatement (level n)) (queryStatement (level n))),
        inferInstanceAs (Renders f (tableSource (level n)) (tableSource (level n))),
        inferInstanceAs (Renders f (disjunction (level n)) (disjunction (level n))),
        inferInstanceAs (Renders f (negation (level n)) (negation (level n))),
        inferInstanceAs (Renders f (signed (level n)) (signed (level n)))⟩

namespace Parser.Renders

variable {f : Rendition}

/-! Scripts. -/

instance : Renders f atStatementEnd atStatementEnd := by
  refine look fun c => ?_
  rw [Cursor.startsQuery_render]
  rfl

instance : Renders f skipStatement skipStatement := by
  refine iterate (fun _ => bind (skipUntil fun _ => rfl) fun _ => ?_) ()
  exact next fun _ => pure rfl

instance : Renders f finishStatement finishStatement :=
  next fun _ => ite _ (pure rfl) (next fun _ => inferInstance)

instance : Renders f query query :=
  bind (attempt (renders_level f _).query) fun _ => next fun _ => inferInstance

instance : Renders f reportOtherStatement reportOtherStatement := by
  refine next fun t => ?_
  simp only [Token.kind_render]
  split
  · refine ite _ (report ?_) inferInstance
    exact congrArg Complaint.unsupportedStatement (t.found_render f).symm
  · infer_instance

instance : Renders f otherStatement otherStatement :=
  next fun _ => next fun _ => inferInstance

instance : Renders f statement statement :=
  next fun _ => ite _ (pure rfl) (next fun _ => ite _ (pure rfl) (next fun _ => ite _
    (bind (attempt inferInstance) fun _ => pure rfl) (next fun _ => pure rfl)))

instance script : Renders f Parser.script Parser.script := collect inferInstance

end Parser.Renders

end QueryNames.Grammar
