import QueryNames.Proofs.Announced.Expression
import QueryNames.Proofs.Reading.Query

/-!
Table sources, queries and scripts read no announced name. Main statement: whatever a script names
stands at a token that was not announced.
-/

namespace QueryNames.Grammar

open Grammar.Parser

variable {all seen : List Token}

/-! What a source or a query names is what its parts name. -/

section Spared

variable (left right : TableSource) (e : Expression) (e? : Option Expression)
  (list : List Expression) (query : Query)
  [first : Spared all left] [second : Spared all right] [operand : Spared all e]
  [maybe : Spared all e?] [listed : Spared all list] [inner : Spared all query]

instance (name : QualifiedName) [spared : Spared all name] (label : Option Identifier) :
    Spared all (TableSource.named ⟨name, label⟩) where
  each := by
    have base := spared.each name.base name.base_mem_parts
    simpa [names, TableSource.outline, NamedTable.outline, Node.mentions] using base

instance (kind : JoinKind) : Spared all (TableSource.joined left right kind e?) where
  each := by
    have all_ := And.intro first.each (And.intro second.each maybe.each)
    cases e? <;> simpa [names, TableSource.outline, Node.mentions, or_imp, forall_and] using all_

instance (label : Option Identifier) (columns : List Identifier) :
    Spared all (TableSource.derived query label columns) where
  each := by simpa [names, TableSource.outline, Node.mentions] using inner.each

instance (name : QualifiedName) (label : Option Identifier) :
    Spared all (TableSource.function name list label) where
  each := by simpa [names, TableSource.outline, Node.mentions, List.flatMap_map] using listed.each

instance (name : String) (label : Option Identifier) :
    Spared all (TableSource.variable name label) where
  each := by simp [names, TableSource.outline, Node.mentions]

instance : Spared all (TableSource.parenthesized left) where
  each := by simpa [names, TableSource.outline, Node.mentions] using first.each

instance (location : Location) : Spared all (SelectItem.wildcard location) where
  each := by simp [names, SelectItem.outline, Node.mentions]

instance (parts : List Identifier) [spared : Spared all parts] (kind : ColumnKind)
    (location : Location) :
    Spared all (SelectItem.qualifiedWildcard ⟨QualifiedName.ofList? parts, kind, location⟩) where
  each := by
    cases parts with
    | nil => simp [names, SelectItem.outline, Column.outline, Node.mentions, QualifiedName.ofList?]
    | cons first others =>
        simpa [names, SelectItem.outline, Column.outline, Node.mentions, QualifiedName.ofList?,
          QualifiedName.parts] using spared.each

instance (label : Option Identifier) : Spared all (SelectItem.expression e label) where
  each := by simpa [names, SelectItem.outline, Node.mentions] using operand.each

instance (percent withTies : Bool) : Spared all (⟨e, percent, withTies⟩ : Top) where
  each := by simpa [names] using operand.each

instance (name : Identifier) (columns : List Identifier) :
    Spared all (⟨name, columns, query⟩ : CommonTable) where
  each := by simpa [names, CommonTable.outline, Node.mentions] using inner.each

instance (location : Location) (tables : List CommonTable) (distinct : Bool) (top? : Option Top)
    (items : List SelectItem) (into : Option QualifiedName) (sources : List TableSource)
    (condition : Option Expression) (groupBy : List Expression) (having : Option Expression)
    (orderBy : List OrderItem) [spared : Spared all tables] [topped : Spared all top?]
    [listed : Spared all items] [sourced : Spared all sources] [filtered : Spared all condition]
    [grouped : Spared all groupBy] [kept : Spared all having] [ordered : Spared all orderBy] :
    Spared all (⟨location, tables, distinct, top?, items, into, sources, condition, groupBy, having,
      orderBy, none⟩ : Query) where
  each := by
    have all_ := And.intro spared.each <| And.intro topped.each <| And.intro listed.each <|
      And.intro sourced.each <| And.intro filtered.each <| And.intro grouped.each <|
      And.intro kept.each ordered.each
    rcases top? with _ | ⟨_, _, _⟩ <;> rcases condition with _ | _ <;> rcases having with _ | _ <;>
      simpa [names, Query.outline, Node.mentions, List.flatMap_map, or_imp, forall_and]
        using all_

/-- Tables that a query is given take the place of its own. -/
instance (tables : List CommonTable) [spared : Spared all tables] :
    Spared all { query with commonTables := tables } where
  each i member := by
    have among := (LevelReads.headedNames query tables).subset member
    exact (List.mem_append.1 among).elim (spared.each i) (inner.each i)

instance (op : SetOperator) (other : Query) [spared : Spared all other] :
    Spared all { query with setOperation := some ⟨op, other⟩ } where
  each i member := by
    have among := (LevelReads.joinedNames query op other).subset member
    exact (List.mem_append.1 among).elim (inner.each i) (spared.each i)

end Spared

set_option synthInstance.maxSize 1024

instance : OnlySilent isJoinHint :=
  inferInstanceAs (OnlySilent fun t =>
    t.isKeyword .merge || t.isWord "HASH" || t.isWord "LOOP" || t.isWord "REMOTE")

theorem startsJoin_of_joinKind? {t next : Token} {kind : JoinKind}
    (found : joinKind? t next = some kind) : ∃ k, t.kind = .keyword k ∧ k.startsJoin = true := by
  unfold joinKind? at found
  split at found <;> rename_i is <;> first | exact ⟨_, is, rfl⟩ | contradiction

theorem silent_of_startsJoin {k : Keyword} (starts : k.startsJoin = true) :
    (TokenKind.keyword k).announces = false := by
  cases k <;> first | rfl | contradiction

theorem Parser.ite_bind (condition : Prop) [Decidable condition] (p q : Parser α)
    (f : α → Parser β) :
    (if condition then p else q) >>= f = if condition then p >>= f else q >>= f := by
  split <;> rfl

namespace Parser.Spares

variable [Naming β] {place stop : Place}

/-! Labels are read, announced or not, but name nothing. -/

instance (f : Option Identifier → Parser β) [∀ label, Spares all [] .anywhere stop (f label)] :
    Spares all [] place stop (tableLabel >>= f) := passing inferInstance

instance (f : Option Identifier → Parser β) [∀ label, Spares all [] .anywhere stop (f label)] :
    Spares all [] place stop (columnLabel >>= f) := passing inferInstance

instance (f : List Identifier → Parser β) [∀ columns, Spares all [] .anywhere stop (f columns)] :
    Spares all [] place stop (columnNames >>= f) := passing inferInstance

instance intoClause (f : Option QualifiedName → Parser β)
    [rest : ∀ into, Spares all [] .free stop (f into)] :
    Spares all [] .free stop (intoClause >>= f) where
  runs := by
    refine Triple.bind (Total.triple (E := fun _ => True) ?_) fun into => (rest into).behind
    refine .bind (Q := fun found s => if found = true then Among all s.cursor
      else Free all s.cursor) (.accept (fun s start _ => ?_) fun s start _ => start.1) ?_
    · exact lasting_among.onward (Free.among start.1) (Cursor.advance_suffix s.cursor)
    · rintro (_ | _)
      · exact .pure fun _ => id
      · refine .bind (Q := fun _ s => Among all s.cursor) ?_ fun name? => ?_
        · exact (passes_among (attempt qualifiedName)).weaken (fun _ => id) (fun _ _ => id)
            (fun _ _ => trivial)
        · have ends : Spares all [] .anywhere .free (finishClause name?.isSome) := inferInstance
          exact (ends.behind.weaken (fun _ => id) (fun _ _ => And.right) (fun _ _ => trivial)).bind
            fun _ => .pure fun _ => id

instance : Spares all [] .free .free skipOptions := by
  unfold skipOptions
  infer_instance

instance : Spares all [] .free .free setOperator? := by
  unfold setOperator?
  infer_instance

/-- Behind a join operator nothing was announced. -/
instance joinOperator (f : Option JoinKind → Parser β) [Spares all [] .anywhere stop (f none)]
    [∀ kind, Spares all [] .free stop (f (some kind))] :
    Spares all [] .anywhere stop (joinOperator? >>= f) := by
  simp only [joinOperator?, bind_assoc]
  apply token
  intro t
  apply following
  intro u
  cases found : joinKind? t u with
  | none =>
      exact inferInstanceAs (Spares all [t, u] .anywhere stop (f none))
  | some kind =>
      obtain ⟨k, is, starts⟩ := startsJoin_of_joinKind? found
      have : NoName t := ⟨by simp [is], by simp [is]⟩
      have : Silent t := .of_kind is (silent_of_startsJoin starts) nofun
      dsimp only
      apply settle
      split
      · rename_i applies
        have isWord := (KeepsFrom.kind_of_joinKind? found).2 (by simpa using applies)
        have : Silent u := .of_kind isWord rfl (by decide)
        simp only [bind_assoc, pure_bind]
        infer_instance
      · simp only [ite_bind, bind_assoc, pure_bind]
        infer_instance

/-- What a common table begins with ends behind a parenthesis, or it breaks off anywhere. -/
instance commonTableHead (f : Option (Identifier × List Identifier) → Parser β)
    [nothing : Spares all [] .anywhere stop (f none)]
    [something : ∀ head, Spares all [] .free stop (f (some head))] :
    Spares all [] .free stop (attempt commonTableHead >>= f) where
  runs := by
    have head : Triple (fun s => Among all s.cursor) Parser.commonTableHead
        (fun _ s => Free all s.cursor) (fun s => Among all s.cursor) :=
      .bind (passes_among _) fun _ => .bind (passes_among _) fun _ =>
        .bind (passes_among _) fun _ => .bind require_among fun _ => .pure fun _ => id
    refine Triple.bind (Q := fun head? s => if head?.isSome = true then Free all s.cursor
      else Among all s.cursor) ?_ ?_
    · exact .attempt (head.weaken (fun _ start => Free.among start.1) (fun _ _ => id) (fun _ => id))
    · rintro (_ | head)
      · exact nothing.behind
      · exact (something head).behind

/-- A star behind names. -/
instance qualifiedStar (p : Parser SelectItem) [rest : Spares all seen .free stop p] :
    Spares all seen .free stop (Parser.look (fun c => startsWithQualifiedStar c.tokens) >>=
      fun starred => if starred = true then Parser.qualifiedStar else p) where
  runs := by
    have star := KeepsFrom.qualifiedStar_runs (I := fun s => Free all s.cursor)
      (P := Unannounced all) (fun s free is => by
        have silent : Silent s.cursor.current := by
          rcases is with is | is | is <;> exact .of_kind is rfl (by decide)
        exact free.pass)
      fun s free => free.unannounced
    intro s start
    rw [bind_apply]
    dsimp only [Parser.look]
    cases starred : startsWithQualifiedStar s.cursor.tokens with
    | true =>
        refine (Total.triple star).weaken (fun _ => id) ?_ (fun _ => id) s ⟨start.1, starred⟩
        rintro _ s' ⟨free, parts, location, each, rfl⟩
        have : Spared all parts := ⟨by simpa [names] using each⟩
        exact ⟨inferInstance, Place.Holds.of_free free⟩
    | false => exact rest.runs s start

variable (inner : Level) [h : inner.Spares all] [inner.Stepwise]

/-! Table sources. -/

instance (t : Token) [Silent t] : Spares all [t] .free .anywhere (derivedTable inner) := by
  unfold derivedTable
  infer_instance

instance (t : Token) [Silent t] : Spares all [t] .free .free (parenthesizedSource inner) := by
  unfold parenthesizedSource
  infer_instance

instance : Spares all [] .free .anywhere (namedSource inner) := by
  unfold namedSource
  infer_instance

instance : Spares all [] .free .anywhere (table inner) := by
  apply token
  intro t
  split
  · rename_i is
    have : Silent t := .of_kind is rfl (by decide)
    have nested : Spares all [t] .free .free (parenthesizedSource inner) := inferInstance
    have := nested.loosen
    infer_instance
  · rename_i is
    have : Silent t := .of_kind is rfl (by decide)
    infer_instance
  · infer_instance
  · have missed : Spares all [t] .free .free (missing .tableReference : Parser TableSource) :=
      inferInstance
    exact missed.loosen

instance (kind : JoinKind) : Spares all [] .anywhere .anywhere (joinCondition inner kind) where
  runs := by
    have condition : Spares all [] .free .free (do
        let condition? ← attempt inner.expression
        let _ ← onlyIf condition?.isNone (Parser.skipUntil endsTable)
        return condition?) := inferInstance
    unfold joinCondition
    split
    · exact .pure fun _ start => ⟨inferInstance, start.1⟩
    · refine Triple.bind (Q := fun found s => if found = true then Free all s.cursor
        else Among all s.cursor) ?_ ?_
      · refine .bind (Q := fun found? s => if found?.isSome = true then Free all s.cursor
          else Among all s.cursor) (.attempt ?_) fun _ => .pure fun _ => id
        exact require_among.weaken (fun _ => And.left) (fun _ _ => id) (fun _ => id)
      · rintro (_ | _)
        · exact .pure fun _ among => ⟨inferInstance, among⟩
        · exact condition.loosen.behind

instance (left : TableSource) [Spared all left] :
    Spares all [] .anywhere .anywhere (join inner left) := by
  unfold join
  infer_instance

instance : Spares all [] .free .anywhere (tableSource inner) := by
  unfold tableSource
  infer_instance

instance : Spares all [] .free .free (sourceList inner) :=
  inferInstanceAs (Spares all [] .free .free (commaList _ _))

/-! Clauses. -/

instance : Spares all [] .free .anywhere (selectItem inner) := by
  apply token
  intro t
  apply following
  intro u
  have plain : Spares all [t, u] .free .anywhere (do
      let e ← inner.expression
      return .expression e (← columnLabel) : Parser SelectItem) := inferInstance
  have loose {p : Parser SelectItem} (spares : Spares all [t, u] .free .free p) := spares.loosen
  dsimp only
  split
  · rename_i star
    have is : t.kind = .star := by simpa using star
    have : Silent t := .of_kind is rfl (by decide)
    exact loose inferInstance
  · split
    · rename_i assigns
      simp only [Bool.and_eq_true, beq_iff_eq] at assigns
      have : Silent t := .of_kind assigns.1 rfl (by decide)
      have : Silent u := .of_kind assigns.2 rfl (by decide)
      exact loose inferInstance
    · split
      · rename_i assigns
        simp only [Bool.and_eq_true, beq_iff_eq] at assigns
        have : Silent t := .of_kind assigns.1 rfl (by decide)
        have : Silent u := .of_kind assigns.2 rfl (by decide)
        exact loose inferInstance
      · infer_instance

instance : Spares all [] .free .free (selectList inner) := by
  unfold selectList
  infer_instance

instance : Spares all [] .free .free (topQuantity inner) := by
  unfold topQuantity
  infer_instance

instance (quantity : Expression) [Spared all quantity] (percent : Bool) :
    Spares all [] .free .free (tiesTail quantity percent) := by
  have known (t u : Token) : Spares all [t, u] .free .free (do
      let withTies ← Parser.accept fun t => t.isKeyword .with && u.isWord "TIES"
      let _ ← onlyIf withTies Parser.advance
      return ⟨quantity, percent, withTies⟩ : Parser Top) := by
    cases word : u.isWord "TIES" with
    | true =>
        have : Silent u := OnlySilent.silent (q := (·.isWord "TIES")) u word
        infer_instance
    | false =>
        simp only [Bool.and_false]
        have none_ : Spares all [t, u] .free .free
            (pure ⟨quantity, percent, false⟩ : Parser Top) := inferInstance
        exact none_
  unfold tiesTail
  infer_instance

instance (t : Token) [Silent t] : Spares all [t] .free .free (top inner) := by
  rw [top_eq]
  infer_instance

instance : Spares all [] .free .free (fromClause inner) := by
  unfold fromClause
  infer_instance

instance : Spares all [] .free .free (expressionClause inner .where) := by
  unfold expressionClause
  infer_instance

instance : Spares all [] .free .free (expressionClause inner .having) := by
  unfold expressionClause
  infer_instance

instance : Spares all [] .free .free (groupClause inner) := by
  unfold groupClause
  infer_instance

instance : Spares all [] .free .free (orderClause inner) := by
  unfold orderClause
  infer_instance

instance (t : Token) [Silent t] : Spares all [t] .free .free (selectQuery inner) := by
  unfold selectQuery
  infer_instance

/-! Queries. -/

instance : Spares all [] .free .free (queryTerm inner) := by
  unfold queryTerm
  infer_instance

instance : Spares all [] .free .free (queryChain inner) :=
  inferInstanceAs (Spares all [] .free .free (chainRight _ _ _))

instance : Spares all [] .free .free (commonTableQuery inner) := by
  unfold commonTableQuery
  infer_instance

instance : Spares all [] .free .free (commonTable inner) := by
  unfold commonTable
  infer_instance

instance : Spares all [] .free .free (commonTables inner) := by
  unfold commonTables
  infer_instance

instance : Spares all [] .free .free (queryStatement inner) := by
  unfold queryStatement
  infer_instance

end Parser.Spares

/-- At every level of nesting. -/
instance spares_level (all : List Token) (n : Nat) : (level n).Spares all := by
  induction n with
  | zero =>
      have tooDeep_ {α : Type} [Naming α] (ends : Token → Bool) [NeverNames ends] :
          Parser.Spares all [] .free .free (tooDeep ends : Parser α) := inferInstance
      exact ⟨tooDeep_ _, (tooDeep_ _).loosen, tooDeep_ _, tooDeep_ _, tooDeep_ _⟩
  | succ n ih =>
      exact ⟨inferInstanceAs (Parser.Spares all [] _ _ (queryStatement (level n))),
        inferInstanceAs (Parser.Spares all [] _ _ (tableSource (level n))),
        inferInstanceAs (Parser.Spares all [] _ _ (disjunction (level n))),
        inferInstanceAs (Parser.Spares all [] _ _ (negation (level n))),
        inferInstanceAs (Parser.Spares all [] _ _ (signed (level n)))⟩

namespace Parser.Spares

/-! Scripts. -/

instance (start : Place) : Spares all [] start .free skipStatement where
  runs := by
    have round (place : Place) : Spares all [] place .free (do
        skipUntil fun t => t.isPunctuation .semicolon || t.isKeyword .select
        return ((), ← acceptPunctuation .rightParen)) := inferInstance
    have ends (place : Place) := (round place).behind.weaken (fun _ => id)
      (fun _ _ => And.right) (fun _ => id)
    exact (Triple.iterateFrom (I := fun _ => Place.free.Holds all) (ends start)
      fun _ => ends .free).weaken (fun _ => And.left) (fun _ _ free => ⟨inferInstance, free⟩)
      (fun _ => id)

instance : Spares all [] .free .free finishStatement := by
  unfold finishStatement atStatementEnd
  infer_instance

instance : Spares all [] .free .free query := by
  unfold query
  infer_instance

instance : Spares all [] .free .free reportOtherStatement := by
  apply token
  intro t
  split <;> infer_instance

instance : Spares all [] .free .free otherStatement := by
  have skips : Spares all [] .free .free (Parser.advance >>= fun _ => skipStatement) :=
    passing inferInstance
  unfold otherStatement
  infer_instance

instance : Spares all [] .free .free statement := by
  unfold statement
  infer_instance

instance : Spares all [] .free .free script := inferInstanceAs (Spares all [] _ _ (collect _))

end Parser.Spares

end QueryNames.Grammar
