import QueryNames.Proofs.Mark
import QueryNames.Proofs.Stepwise.Places

/-!
Results without stars. Main statement: the rules by which a parser that has no star ahead of it
finds nothing in which a star is selected.
-/

namespace QueryNames

def Outline.starred (outline : Outline) : Bool := Mark.stars outline.marks

@[simp] theorem Outline.starred_node (top : Node) (inside : List Outline) :
    (node top inside).starred = (Mark.stars top.marks || inside.any starred) := by
  rw [starred, marks_node, Mark.stars_append, Mark.stars_flatMap]
  rfl

namespace Grammar

/-- Whether a star is selected somewhere in a result. -/
class Starring (α : Type) where
  starred : α → Bool

export Starring (starred)

/-- Nothing is selected in results of this kind. -/
class Plain (α : Type) [Starring α] : Prop where
  plain (a : α) : starred a = false

class Unstarred [Starring α] (a : α) : Prop where
  unstarred : starred a = false

section Results

instance : Starring Unit := ⟨fun _ => false⟩
instance : Starring Bool := ⟨fun _ => false⟩
instance : Starring String := ⟨fun _ => false⟩
instance : Starring Token := ⟨fun _ => false⟩
instance : Starring Location := ⟨fun _ => false⟩
instance : Starring Identifier := ⟨fun _ => false⟩
instance : Starring QualifiedName := ⟨fun _ => false⟩
instance : Starring UnaryOperator := ⟨fun _ => false⟩
instance : Starring BinaryOperator := ⟨fun _ => false⟩
instance : Starring JoinKind := ⟨fun _ => false⟩
instance [Starring α] : Starring (Option α) := ⟨fun a? => a?.toList.any starred⟩
instance [Starring α] : Starring (List α) := ⟨fun as => as.any starred⟩
instance [Starring α] [Starring β] : Starring (α × β) := ⟨fun ab => starred ab.1 || starred ab.2⟩
instance : Starring Expression := ⟨fun e => e.outline.starred⟩
instance : Starring WhenBranch := ⟨fun branch => starred branch.condition || starred branch.result⟩
instance : Starring OrderItem := ⟨fun item => item.outline.starred⟩
instance : Starring Window := ⟨fun window => starred window.partitionBy || starred window.orderBy⟩
instance : Starring TableSource := ⟨fun source => source.outline.starred⟩
instance : Starring SelectItem := ⟨fun item => item.outline.starred⟩
instance : Starring Top := ⟨fun top => starred top.quantity⟩
instance : Starring Query := ⟨fun query => query.outline.starred⟩
instance : Starring CommonTable := ⟨fun table => table.outline.starred⟩

instance : Plain Unit := ⟨fun _ => rfl⟩
instance : Plain Bool := ⟨fun _ => rfl⟩
instance : Plain String := ⟨fun _ => rfl⟩
instance : Plain Token := ⟨fun _ => rfl⟩
instance : Plain Location := ⟨fun _ => rfl⟩
instance : Plain Identifier := ⟨fun _ => rfl⟩
instance : Plain QualifiedName := ⟨fun _ => rfl⟩
instance : Plain UnaryOperator := ⟨fun _ => rfl⟩
instance : Plain BinaryOperator := ⟨fun _ => rfl⟩
instance : Plain JoinKind := ⟨fun _ => rfl⟩

variable [Starring α] [Starring β]

instance [Plain α] : Plain (Option α) where
  plain a? := by cases a? <;> simp [starred, Plain.plain]

instance [Plain α] : Plain (List α) where
  plain as := by simp [starred, Plain.plain]

instance [Plain α] [Plain β] : Plain (α × β) where
  plain ab := by simp [starred, Plain.plain]

instance (a : { a : α // starred a = false }) : Unstarred a.val := ⟨a.property⟩

instance (a : α) [Plain α] : Unstarred a := ⟨Plain.plain a⟩

instance : Unstarred (none : Option α) := ⟨rfl⟩

instance (a : α) [h : Unstarred a] : Unstarred (some a) where
  unstarred := by simp [starred, h.unstarred]

instance : Unstarred ([] : List α) := ⟨rfl⟩

instance (a : α) (b : β) [h : Unstarred a] [h' : Unstarred b] : Unstarred (a, b) where
  unstarred := by simp [starred, h.unstarred, h'.unstarred]

instance (as? : Option (List α)) [h : Unstarred as?] : Unstarred (as?.getD []) where
  unstarred := by
    cases as? with
    | none => rfl
    | some as => simpa [starred] using h.unstarred

instance (f : α → β) (a? : Option α) [h : Unstarred a?]
    [keeps : ∀ a : { a : α // starred a = false }, Unstarred (f a)] : Unstarred (a?.map f) where
  unstarred := by
    cases a? with
    | none => rfl
    | some a =>
        have bare : starred a = false := by simpa [starred] using h.unstarred
        simpa [starred] using (keeps ⟨a, bare⟩).unstarred

/-! Trees. -/

instance (column : Column) : Unstarred (Expression.column column) where
  unstarred := by
    rcases column with ⟨_ | name, kind, location⟩ <;>
      simp [starred, Expression.outline, Column.outline, Node.marks, Mark.stars]

instance (value : Literal) : Unstarred (Expression.literal value) := ⟨rfl⟩

instance (name : String) : Unstarred (Expression.variable name) := ⟨rfl⟩

instance (name : String) : Unstarred (Expression.niladic name) := ⟨rfl⟩

section Expressions

variable (e left right : Expression) [h : Unstarred e] [hl : Unstarred left] [hr : Unstarred right]
  (list : List Expression) [hs : Unstarred list] (e? other? : Option Expression)
  [h? : Unstarred e?] [ho : Unstarred other?] (query : Query) [hq : Unstarred query]

instance (op : UnaryOperator) : Unstarred (Expression.unary op e) where
  unstarred := by
    have := h.unstarred
    simp_all [starred, Expression.outline, Node.marks, Mark.stars]

instance (op : BinaryOperator) : Unstarred (Expression.binary op left right) where
  unstarred := by
    have := hl.unstarred
    have := hr.unstarred
    simp_all [starred, Expression.outline, Node.marks, Mark.stars]

instance (name : QualifiedName) (distinct : Bool) (window : Option Window) [h : Unstarred window] :
    Unstarred (Expression.function name list distinct window) where
  unstarred := by
    have := hs.unstarred
    have := h.unstarred
    cases window <;> simp_all [starred, Expression.outline, Node.marks, Mark.stars]

instance (branches : List WhenBranch) [h : Unstarred branches] :
    Unstarred (Expression.case e? branches other?) where
  unstarred := by
    have := h?.unstarred
    have := h.unstarred
    have := ho.unstarred
    simp_all [starred, Expression.outline, Node.marks, Mark.stars]

instance (type : String) : Unstarred (Expression.cast e type e?) where
  unstarred := by
    have := h.unstarred
    have := h?.unstarred
    simp_all [starred, Expression.outline, Node.marks, Mark.stars]

instance : Unstarred (Expression.subquery query) where
  unstarred := by
    have := hq.unstarred
    simp_all [starred, Expression.outline, Node.marks, Mark.stars]

instance : Unstarred (Expression.exists query) where
  unstarred := by
    have := hq.unstarred
    simp_all [starred, Expression.outline, Node.marks, Mark.stars]

instance (negated : Bool) : Unstarred (Expression.inList e list negated) where
  unstarred := by
    have := h.unstarred
    have := hs.unstarred
    simp_all [starred, Expression.outline, Node.marks, Mark.stars]

instance (negated : Bool) : Unstarred (Expression.inSubquery e query negated) where
  unstarred := by
    have := h.unstarred
    have := hq.unstarred
    simp_all [starred, Expression.outline, Node.marks, Mark.stars]

instance (negated : Bool) : Unstarred (Expression.between e left right negated) where
  unstarred := by
    have := h.unstarred
    have := hl.unstarred
    have := hr.unstarred
    simp_all [starred, Expression.outline, Node.marks, Mark.stars]

instance (negated : Bool) : Unstarred (Expression.like left right e? negated) where
  unstarred := by
    have := hl.unstarred
    have := hr.unstarred
    have := h?.unstarred
    simp_all [starred, Expression.outline, Node.marks, Mark.stars]

instance (negated : Bool) : Unstarred (Expression.isNull e negated) where
  unstarred := by
    have := h.unstarred
    simp_all [starred, Expression.outline, Node.marks, Mark.stars]

instance : Unstarred (Expression.nested e) where
  unstarred := by
    have := h.unstarred
    simp_all [starred, Expression.outline, Node.marks, Mark.stars]

instance : Unstarred (WhenBranch.mk left right) where
  unstarred := by
    have := hl.unstarred
    have := hr.unstarred
    simp_all [starred]

instance (ascending : Option Bool) : Unstarred (OrderItem.mk e ascending) where
  unstarred := by
    have := h.unstarred
    simp_all [starred, OrderItem.outline, Node.marks, Mark.stars]

instance (items : List OrderItem) [hi : Unstarred items] : Unstarred (Window.mk list items) where
  unstarred := by
    have := hs.unstarred
    have := hi.unstarred
    simp_all [starred]

instance (label : Option Identifier) : Unstarred (SelectItem.expression e label) where
  unstarred := by
    have := h.unstarred
    simp_all [starred, SelectItem.outline, Node.marks, Mark.stars]

instance (percent withTies : Bool) : Unstarred (Top.mk e percent withTies) := ⟨h.unstarred⟩

instance (name : Identifier) (columns : List Identifier) :
    Unstarred (CommonTable.mk name columns query) where
  unstarred := by
    have := hq.unstarred
    simp_all [starred, CommonTable.outline, Node.marks, Mark.stars]

instance (table : NamedTable) : Unstarred (TableSource.named table) where
  unstarred := by simp [starred, TableSource.outline, NamedTable.outline, Node.marks, Mark.stars]

instance (name : String) (label : Option Identifier) :
    Unstarred (TableSource.variable name label) := ⟨rfl⟩

instance (name : QualifiedName) (label : Option Identifier) :
    Unstarred (TableSource.function name list label) where
  unstarred := by
    have := hs.unstarred
    simp_all [starred, TableSource.outline, Node.marks, Mark.stars]

instance (label : Option Identifier) (columns : List Identifier) :
    Unstarred (TableSource.derived query label columns) where
  unstarred := by
    have := hq.unstarred
    simp_all [starred, TableSource.outline, Node.marks, Mark.stars]

variable (source other : TableSource) [ht : Unstarred source] [hu : Unstarred other]

instance : Unstarred (TableSource.parenthesized source) where
  unstarred := by
    have := ht.unstarred
    simp_all [starred, TableSource.outline, Node.marks, Mark.stars]

instance (kind : JoinKind) : Unstarred (TableSource.joined source other kind e?) where
  unstarred := by
    have := ht.unstarred
    have := hu.unstarred
    have := h?.unstarred
    simp_all [starred, TableSource.outline, Node.marks, Mark.stars]

end Expressions

/-- A query before anything is joined to it. -/
instance (location : Location) (tables : List CommonTable) [ht : Unstarred tables]
    (distinct : Bool) (top : Option Top) [h : Unstarred top]
    (items : List SelectItem) [hi : Unstarred items] (into : Option QualifiedName)
    (sources : List TableSource) [hs : Unstarred sources] (condition : Option Expression)
    [hc : Unstarred condition] (groupBy : List Expression) [hg : Unstarred groupBy]
    (having : Option Expression) [hh : Unstarred having] (orderBy : List OrderItem)
    [ho : Unstarred orderBy] :
    Unstarred (Query.mk location tables distinct top items into sources condition groupBy having
      orderBy none) where
  unstarred := by
    have := ht.unstarred
    have := h.unstarred
    have := hi.unstarred
    have := hs.unstarred
    have := hc.unstarred
    have := hg.unstarred
    have := hh.unstarred
    have := ho.unstarred
    simp_all [starred, Query.outline, Node.marks, Mark.stars]

instance (query right : Query) [h : Unstarred query] [h' : Unstarred right]
    (operator : SetOperator) :
    Unstarred { query with setOperation := some ⟨operator, right⟩ } where
  unstarred := by
    have := h.unstarred
    have := h'.unstarred
    cases query
    simp_all [starred, Query.outline, Node.marks, Mark.stars]

instance (query : Query) [h : Unstarred query] (tables : List CommonTable) [h' : Unstarred tables] :
    Unstarred { query with commonTables := tables } where
  unstarred := by
    have := h.unstarred
    have := h'.unstarred
    cases query
    simp_all [starred, Query.outline, Node.marks, Mark.stars]

end Results

/-- No star stands ahead. -/
def State.NoStar (s : State) : Prop := ∀ t ∈ s.cursor.tokens, t.kind ≠ .star

theorem lasting_noStar : Lasting State.NoStar := lasting_ahead fun t => t.kind ≠ .star

namespace Parser

/-- Where no star stands ahead, none is selected in what the parser finds. -/
class Starless [Starring α] (p : Parser α) : Prop where
  starless {s s' : State} {a : α} : s.NoStar → p s = (some a, s') → starred a = false

namespace Starless

variable [Starring α] [Starring β]

instance [Plain α] (p : Parser α) : Starless p := ⟨fun _ _ => Plain.plain _⟩

instance (a : α) [Unstarred a] : Starless (pure a) where
  starless := by
    rintro s _ _ - ⟨⟩
    exact Unstarred.unstarred

instance : Starless (giveUp : Parser α) := ⟨nofun⟩

instance (a? : Option α) [h : Unstarred a?] : Starless (ofOption a?) where
  starless := by
    cases a? with
    | none => exact nofun
    | some a =>
        rintro s _ _ - ⟨⟩
        simpa [starred] using h.unstarred

instance bind (p : Parser α) (f : α → Parser β) [Stepwise p] [Starless p]
    [rest : ∀ a : { a : α // starred a = false }, Starless (f a)] : Starless (p >>= f) where
  starless {s s' b} none run := by
    rw [bind_apply] at run
    rcases first : p s with ⟨_ | a, s''⟩ <;> rw [first] at run
    · cases run
    · have bare := starless none first
      have behind := Stepwise.of_run lasting_noStar none first
      exact (rest ⟨a, bare⟩).starless behind run

/-- The same, for what follows by cases on the result. -/
theorem next {p : Parser α} {f : α → Parser β} [Stepwise p] [Starless p]
    (rest : ∀ a : { a : α // starred a = false }, Starless (f a)) : Starless (p >>= f) := bind p f

theorem nextOption {p : Parser (Option α)} {f : Option α → Parser β} [Stepwise p] [Starless p]
    (nothing : Starless (f none)) (something : ∀ a : { a : α // starred a = false },
      Starless (f (some a.val))) : Starless (p >>= f) := by
  apply next
  rintro ⟨_ | a, bare⟩
  · exact nothing
  · exact something ⟨a, by simpa [starred] using bare⟩

omit [Starring α] in
/-- What is seen holds no star either. -/
theorem looking {f : Cursor → α} {k : α → Parser β}
    (rest : ∀ c : Cursor, (∀ t ∈ c.tokens, t.kind ≠ .star) → Starless (k (f c))) :
    Starless (look f >>= k) where
  starless none run := (rest _ none).starless none run

instance (f : α → β) (p : Parser α) [Stepwise p] [Starless p]
    [∀ a : { a : α // starred a = false }, Unstarred (f a)] : Starless (f <$> p) :=
  bind p fun a => pure (f a)

instance (p : Parser α) [h : Starless p] : Starless (attempt p) where
  starless {s s' a?} none run := by
    cases run
    rcases first : p s with ⟨_ | a, s''⟩
    · rfl
    · simp [starred, h.starless none first]

instance (condition : Prop) [Decidable condition] (p q : Parser α) [Starless p] [Starless q] :
    Starless (if condition then p else q) := by
  split <;> infer_instance

instance (condition : Bool) (p : Parser α) [Starless p] : Starless (onlyIf condition p) := by
  unfold onlyIf
  infer_instance

instance (condition : Bool) (p : Parser α) [Stepwise p] [Starless p] :
    Starless (requiredIf condition p) := by
  unfold requiredIf
  infer_instance

instance (step : β → Parser (β × Bool)) (b : β) [∀ b, Stepwise (step b)]
    [round : ∀ b : { b : β // starred b = false }, Starless (step b)] [start : Unstarred b] :
    Starless (iterate step b) where
  starless {s s' b'} none run := by
    have bare := start.unstarred
    clear start
    fun_induction iterate step b s with
    | case1 => cases run
    | case2 b s b'' more s'' first goesOn ih =>
        have found := (round ⟨b, bare⟩).starless none first
        have behind := Stepwise.of_run lasting_noStar none first
        exact ih behind run (by simpa [starred] using found)
    | case3 b s b'' more s'' first stops =>
        have found := (round ⟨b, bare⟩).starless none first
        cases run
        simpa [starred] using found

instance (step : Parser (Option α × Bool)) [Stepwise step] [h : Starless step] :
    Starless (collect step) where
  starless {s s' as} none run := by
    fun_induction collect step s generalizing s' as with
    | case1 => cases run
    | case2 s a? more s'' first goesOn s''' last ih => cases run
    | case3 s a? more s'' first goesOn as' s''' last ih =>
        have found := h.starless none first
        have behind := Stepwise.of_run lasting_noStar none first
        have others := ih behind last
        cases run
        simp_all [starred]
    | case4 s a? more s'' first stops =>
        have found := h.starless none first
        cases run
        simpa [starred] using found

instance (operand : Parser α) (operator : Parser (Option ω)) (join : α → ω → α → α)
    [Stepwise operand] [Stepwise operator] [h : Starless operand]
    [joins : ∀ (a b : { a : α // starred a = false }) (op : ω), Unstarred (join a op b)] :
    Starless (chainRight operand operator join) where
  starless {s s' a} none run := by
    fun_induction chainRight operand operator join s generalizing s' a with
    | case1 => cases run
    | case2 s a s₁ first op s₂ between goesOn b s₃ last ih =>
        have left := h.starless none first
        have behind := Stepwise.of_run lasting_noStar none first
        have right := ih (Stepwise.of_run lasting_noStar behind between) last
        cases run
        exact (joins ⟨a, left⟩ ⟨b, right⟩ op).unstarred
    | case3 s a s₁ first op s₂ between goesOn s₃ last ih
    | case4 s a s₁ first op s₂ between stops
    | case5 s a s₁ first op? s₂ noOperator between =>
        cases run
        exact h.starless none first

instance (operand : Parser α) (operator : Parser (Option ω)) (join : ω → α → α → α) [Starring ω]
    [Plain ω] [Stepwise operand] [Stepwise operator] [Starless operand]
    [∀ (op : ω) (a b : { a : α // starred a = false }), Unstarred (join op a b)] :
    Starless (chainLeft operand operator join) := by
  have round (left : { a : α // starred a = false }) :
      Starless (chainRound operand operator join left.val) := by
    apply nextOption
    · exact inferInstanceAs (Starless (pure _))
    · intro op
      apply nextOption
      · exact inferInstanceAs (Starless (pure _))
      · intro right
        exact inferInstanceAs (Starless (pure _))
  rw [chainLeft_eq]
  infer_instance

instance (ends : Token → Bool) (item : Parser α) [Stepwise item] [Starless item] :
    Starless (commaList ends item) := by
  unfold commaList
  infer_instance

instance (ends : Token → Bool) : Starless (tooDeep ends : Parser α) := by
  unfold tooDeep
  infer_instance

instance (expected : Expected) : Starless (missing expected : Parser α) := by
  unfold missing
  infer_instance

end Starless

end Parser

end Grammar

end QueryNames
