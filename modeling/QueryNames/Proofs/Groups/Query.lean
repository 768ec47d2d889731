import QueryNames.Proofs.Groups.Expression

/-!
Table sources, queries and scripts come back to the depth where they begin. Main statement: so does
what any level reads, and a whole script.
-/

namespace QueryNames.Grammar

open Grammar.Parser

set_option synthInstance.maxSize 512

instance : OnlyOrdinary isJoinHint :=
  inferInstanceAs (OnlyOrdinary fun t =>
    t.isKeyword .merge || t.isWord "HASH" || t.isWord "LOOP" || t.isWord "REMOTE")

namespace Parser.Counts

variable {whole seen : List Token} {n : Nat}

instance : Counts whole [] n n tableLabel := by
  unfold tableLabel
  infer_instance

instance : Counts whole [] n n joinOperator? := by
  apply token
  intro t
  apply following
  intro u
  cases found : joinKind? t u with
  | none => infer_instance
  | some kind =>
      obtain ⟨⟨k, is, -⟩, applies⟩ := KeepsFrom.kind_of_joinKind? found
      have : Ordinary t := .of_kind is rfl
      dsimp only
      split
      · rename_i apply_
        have : Ordinary u := .of_kind (applies (by simpa using apply_)) rfl
        infer_instance
      · infer_instance

instance : Counts whole [] n n intoClause := by
  unfold intoClause
  infer_instance

instance : Counts whole [] n n setOperator? := by
  unfold setOperator?
  infer_instance

instance : Counts whole [] n n columnLabel := by
  apply next
  intro explicit
  apply token
  intro t
  split
  · infer_instance
  · rename_i is
    have : Ordinary t := .of_kind is rfl
    infer_instance
  · infer_instance

instance : Counts whole [] n (n + 1) commonTableHead := by
  unfold commonTableHead
  infer_instance

/-- A star behind names. -/
instance qualifiedStar (p : Parser SelectItem) [rest : Counts whole seen n n p] :
    Counts whole seen n n (Parser.look (fun c => startsWithQualifiedStar c.tokens) >>=
      fun starred => if starred = true then Parser.qualifiedStar else p) where
  stepwise := by
    have := rest.stepwise
    infer_instance
  runs := by
    apply Triple.bind (Q := fun starred s => (Stands whole n s.cursor ∧ Seen seen s.cursor) ∧
      startsWithQualifiedStar s.cursor.tokens = starred)
    · exact .look fun s start => ⟨start, rfl⟩
    · rintro (_ | _)
      · exact rest.runs.weaken (fun _ => And.left) (fun _ _ => id) (fun _ => id)
      · have keeps : Triple _ Parser.qualifiedStar _ _ := KeepsFrom.qualifiedStar_keeps
          (I := fun s => Stands whole n s.cursor) fun s stands is => by
            have ordinary : Ordinary s.cursor.current := by
              rcases is with is | is | is
              · exact .of_kind is rfl
              · exact .of_kind is rfl
              · exact .of_kind is rfl
            exact stands.pass ordinary.isEnd ordinary.isParen
        exact (Total.triple keeps).weaken (fun _ start => ⟨start.1.1, start.2⟩) (fun _ _ => .inr)
          (fun _ => id)

variable (inner : Level) [h : inner.Counts whole]

/-! Table sources. -/

instance (t : Token) [Opening t] : Counts whole [t] n n (derivedTable inner) := by
  unfold derivedTable
  infer_instance

instance (t : Token) [Opening t] : Counts whole [t] n n (parenthesizedSource inner) := by
  unfold parenthesizedSource
  infer_instance

/-- Hints and samples are passed over where no arguments stand. -/
instance : Counts whole [] n n (namedSource inner) := by
  have := h.stepwise
  have name : Counts whole [] n n qualifiedName := inferInstance
  have label : Counts whole [] n n tableLabel := inferInstance
  have call (name : QualifiedName) : Counts whole [] (n + 1) n (do
      let list ← arguments inner
      return TableSource.function name list (← tableLabel)) := inferInstance
  have table (source : TableSource) : Counts whole [] n n (pure source) := inferInstance
  apply of_reaches
  intro c start _
  have ahead := start.suffix
  refine .bind (name.reaches start trivial) fun name d named stands => ?_
  cases opens : d.current.isPunctuation .leftParen with
  | true =>
      refine .next ?_ (accept_present opens)
      exact (call name).reaches (stands.enter opens) trivial
  | false =>
      refine .next ?_ (accept_absent opens)
      refine .bind (label.reaches stands trivial) fun label d labelled stands => ?_
      have reads : tableName ⟨c, []⟩ = (some ⟨name, label⟩, ⟨d, []⟩) := by
        rw [tableName, bind_some named, bind_some labelled]
        rfl
      simp only [skipHints_eq, bind_assoc]
      refine .bind (PassedOver.hints.reaches ahead reads stands) fun u? d hinted stands => ?_
      have reads : (tableName >>= fun _ => tableHints) ⟨c, []⟩ = (some u?, ⟨d, []⟩) := by
        rw [bind_some reads, hinted]
      refine .bind (PassedOver.sample.reaches ahead reads stands) fun _ d _ stands => ?_
      exact (table _).reaches stands trivial

instance : Counts whole [] n n (table inner) := by
  apply token
  intro t
  split
  · rename_i is
    have : Opening t := ⟨by simp [Token.isPunctuation, is]⟩
    infer_instance
  · rename_i is
    have : Ordinary t := .of_kind is rfl
    infer_instance
  · infer_instance
  · infer_instance

instance (kind : JoinKind) : Counts whole [] n n (joinCondition inner kind) := by
  unfold joinCondition
  infer_instance

instance (left : TableSource) : Counts whole [] n n (join inner left) := by
  have := h.stepwise
  apply next
  intro kind?
  cases kind? <;> infer_instance

instance : Counts whole [] n n (tableSource inner) := by
  unfold tableSource
  infer_instance

instance : Counts whole [] n n (sourceList inner) :=
  inferInstanceAs (Counts whole [] n n (commaList _ _))

/-! Clauses. -/

instance : Counts whole [] n n (selectItem inner) := by
  apply token
  intro t
  apply following
  intro u
  have plain : Counts whole [t, u] n n (do
      let e ← inner.expression
      return .expression e (← columnLabel) : Parser SelectItem) := inferInstance
  dsimp only
  split
  · rename_i star
    have is : t.kind = .star := by simpa using star
    have : Ordinary t := .of_kind is rfl
    infer_instance
  · split
    · rename_i assigns
      simp only [Bool.and_eq_true, beq_iff_eq] at assigns
      have : Ordinary t := .of_kind assigns.1 rfl
      have : Ordinary u := .of_kind assigns.2 rfl
      infer_instance
    · split
      · rename_i assigns
        simp only [Bool.and_eq_true, beq_iff_eq] at assigns
        have : Ordinary t := .of_kind assigns.1 rfl
        have : Ordinary u := .of_kind assigns.2 rfl
        infer_instance
      · infer_instance

instance : Counts whole [] n n (selectList inner) := by
  unfold selectList
  infer_instance

instance : Counts whole [] n n (topQuantity inner) := by
  unfold topQuantity
  infer_instance

instance (quantity : Expression) (percent : Bool) :
    Counts whole [] n n (tiesTail quantity percent) := by
  have known (t u : Token) : Counts whole [t, u] n n (do
      let withTies ← Parser.accept fun t => t.isKeyword .with && u.isWord "TIES"
      let _ ← onlyIf withTies Parser.advance
      return ⟨quantity, percent, withTies⟩ : Parser Top) := by
    cases word : u.isWord "TIES" with
    | true =>
        have : Ordinary u := OnlyOrdinary.ordinary (q := (·.isWord "TIES")) u word
        infer_instance
    | false =>
        simp only [Bool.and_false]
        have none_ : Counts whole [t, u] n n
            (pure ⟨quantity, percent, false⟩ : Parser Top) := inferInstance
        exact none_
  unfold tiesTail
  infer_instance

instance (t : Token) [Ordinary t] : Counts whole [t] n n (top inner) := by
  rw [top_eq]
  infer_instance

instance : Counts whole [] n n (fromClause inner) := by
  unfold fromClause
  infer_instance

instance (k : Keyword) : Counts whole [] n n (expressionClause inner k) := by
  unfold expressionClause
  infer_instance

instance : Counts whole [] n n (groupClause inner) := by
  unfold groupClause
  infer_instance

instance : Counts whole [] n n (orderHead inner) := by
  unfold orderHead
  infer_instance

/-- Row counts are passed over behind a list that was read. -/
instance : Counts whole [] n n (orderClause inner) := by
  have := h.stepwise
  obtain ⟨m, rfl⟩ := h.isLevel
  have head : Counts whole [] n n (orderHead (level m)) := inferInstance
  have finish (list : List OrderItem) : Counts whole [] n n (do
      finishClause true
      return list) := inferInstance
  have none_ : Counts whole [] n n (pure [] : Parser (List OrderItem)) := inferInstance
  apply of_reaches
  intro c start _
  cases isOrder : c.current.isKeyword .order with
  | false => exact .next (none_.reaches start trivial) (accept_absent isOrder)
  | true =>
      refine .congr ?_ (orderClause_eq_orderHead isOrder)
      refine .attemptBind (head.reaches start trivial) fun list d reads stands => ?_
      refine .bind ((PassedOver.rows m).reaches start.suffix reads stands) fun _ d _ stands => ?_
      exact (finish list).reaches stands trivial

class Selecting (t : Token) : Prop where
  selects : t.isKeyword .select = true

instance (t : { t : Token // Selecting t }) : Selecting t.val := t.property

instance : Inhabited { t : Token // Selecting t } :=
  ⟨⟨.keyword .select, "SELECT", .none⟩, ⟨rfl⟩⟩

instance : Counts whole [] n n (selectHead inner) := by
  unfold selectHead
  infer_instance

/-- Formats and options are passed over behind a query that was read. -/
instance (t : Token) [selecting : Selecting t] : Counts whole [t] n n (selectQuery inner) := by
  have := h.stepwise
  obtain ⟨m, rfl⟩ := h.isLevel
  have head : Counts whole [] n n (selectHead (level m)) := inferInstance
  have found (query : Query) : Counts whole [] n n (pure query) := inferInstance
  apply of_reaches
  rintro c start ⟨rfl, -⟩
  have ahead := start.suffix
  refine .congr ?_ (selectQuery_eq_selectHead selecting.selects)
  refine .bind (head.reaches start trivial) fun query d reads stands => ?_
  refine .bind ((PassedOver.format m).reaches ahead reads stands) fun u? d formats stands => ?_
  have reads : (selectHead (level m) >>= fun _ => resultFormat) ⟨c, []⟩ = (some u?, ⟨d, []⟩) := by
    rw [bind_some reads, formats]
  refine .bind ((PassedOver.options m).reaches ahead reads stands) fun _ d _ stands => ?_
  exact (found query).reaches stands trivial

/-! Queries. -/

instance : Counts whole [] n n (queryTerm inner) :=
  telling Selecting (fun _ => Selecting.mk) (fun _ => inferInstance) inferInstance

instance : Counts whole [] n n (queryChain inner) :=
  inferInstanceAs (Counts whole [] n n (chainRight _ _ _))

instance : Counts whole [] n n (commonTableQuery inner) := by
  unfold commonTableQuery
  infer_instance

instance : Counts whole [] n n (commonTable inner) := by
  unfold commonTable
  infer_instance

instance : Counts whole [] n n (commonTables inner) := by
  unfold commonTables
  infer_instance

instance : Counts whole [] n n (queryStatement inner) := by
  unfold queryStatement
  infer_instance

end Parser.Counts

/-- At every level of nesting. -/
instance counts_level (whole : List Token) (n : Nat) : (level n).Counts whole := by
  induction n with
  | zero =>
      refine ⟨⟨0, rfl⟩, ?_, ?_, ?_, ?_, ?_⟩ <;>
        exact fun _ => inferInstanceAs (Parser.Counts whole [] _ _ (tooDeep _))
  | succ n ih =>
      exact ⟨⟨n + 1, rfl⟩,
        fun m => inferInstanceAs (Parser.Counts whole [] m m (queryStatement (level n))),
        fun m => inferInstanceAs (Parser.Counts whole [] m m (tableSource (level n))),
        fun m => inferInstanceAs (Parser.Counts whole [] m m (disjunction (level n))),
        fun m => inferInstanceAs (Parser.Counts whole [] m m (negation (level n))),
        fun m => inferInstanceAs (Parser.Counts whole [] m m (signed (level n)))⟩

namespace Parser.Counts

variable {whole : List Token} {n : Nat}

/-! Scripts. -/

/-- A statement that does not end is complained of. -/
instance : Counts whole [] n n finishStatement where
  stepwise := inferInstance
  runs s start := by
    obtain ⟨u, s', run⟩ := Total.result (p := finishStatement) s
    rw [run]
    by_cases quiet : s'.reported = []
    · obtain rfl := finishStatement_quiet run quiet
      exact .inr start.1
    · exact .inl (.inl quiet)

instance : Counts whole [] n n query := by
  unfold query
  infer_instance

instance : Counts whole [] n n otherStatement where
  stepwise := inferInstance
  runs s _ := by
    have complained : Complained (otherStatement s).2 := otherStatement_complains
    rcases run : otherStatement s with ⟨_ | _, s'⟩ <;> rw [run] at complained
    · exact .inl complained
    · exact .inl (.inl complained)

instance : Counts whole [] n n statement := by
  unfold statement
  infer_instance

instance : Counts whole [] n n script := inferInstanceAs (Counts whole [] n n (collect _))

end Parser.Counts

end QueryNames.Grammar
