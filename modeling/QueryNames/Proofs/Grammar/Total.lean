import QueryNames.Proofs.Grammar.Part
import QueryNames.Proofs.Grammar.Triple

/-!
Parsers that never give up.
-/

namespace QueryNames.Grammar.Parser

/-- The parser always has a result. -/
class Total (p : Parser α) : Prop where
  result (s : State) : ∃ a s', p s = (some a, s')

namespace Total

/-- A parser that never gives up need not end in anything then. -/
theorem triple {p : Parser α} [Total p] {P E E' : State → Prop} {Q : α → State → Prop}
    (holds : Triple P p Q E) : Triple P p Q E' := by
  intro s start
  obtain ⟨a, s', run⟩ := Total.result (p := p) s
  rw [run]
  exact holds.of_result start run

instance (a : α) : Total (pure a : Parser α) := ⟨fun s => ⟨a, s, rfl⟩⟩

instance bind (p : Parser α) (f : α → Parser β) [Total p] [rest : ∀ a, Total (f a)] :
    Total (p >>= f) where
  result s := by
    obtain ⟨a, s', run⟩ := Total.result (p := p) s
    obtain ⟨b, s'', last⟩ := (rest a).result s'
    refine ⟨b, s'', ?_⟩
    rw [bind_apply, run]
    exact last

instance (p : Parser α) : Total (attempt p) := ⟨fun s => ⟨(p s).1, (p s).2, rfl⟩⟩

instance (condition : Prop) [Decidable condition] (p q : Parser α) [Total p] [Total q] :
    Total (if condition then p else q) := by
  split <;> infer_instance

instance (condition : Bool) (p : Parser α) : Total (onlyIf condition p) := by
  unfold onlyIf
  infer_instance

instance (f : Cursor → α) : Total (look f) := ⟨fun s => ⟨f s.cursor, s, rfl⟩⟩

instance (f : Cursor → Cursor) : Total (move f) := ⟨fun _ => ⟨(), _, rfl⟩⟩

instance (q : Token → Bool) : Total (accept q) where
  result s := by
    cases found : q s.cursor.current with
    | false => exact ⟨false, s, by simp [accept, found]⟩
    | true => exact ⟨true, _, by simp [accept, found]; rfl⟩

instance (complaint : Complaint) : Total (report complaint) where
  result s := by
    unfold report
    dsimp only
    split
    · exact ⟨(), _, rfl⟩
    · exact ⟨(), _, rfl⟩

instance (step : β → Parser (β × Bool)) (b : β) [round : ∀ b, Total (step b)] :
    Total (iterate step b) where
  result s := by
    fun_induction iterate step b s with
    | case1 b s s' run =>
        obtain ⟨r, s'', result⟩ := (round b).result s
        rw [run] at result
        cases result
    | case2 b s b' more s' run _ ih => exact ih
    | case3 b s b' more s' run _ => exact ⟨b', s', rfl⟩

instance (step : Parser (Option α × Bool)) [Total step] : Total (collect step) where
  result s := by
    fun_induction collect step s with
    | case1 s s' run =>
        obtain ⟨r, s'', result⟩ := Total.result (p := step) s
        rw [run] at result
        cases result
    | case2 s a? more s' run _ s'' last ih =>
        obtain ⟨as, s''', result⟩ := ih
        rw [last] at result
        cases result
    | case3 s a? more s' run _ as s'' last ih => exact ⟨_, s'', rfl⟩
    | case4 s a? more s' run _ => exact ⟨_, s', rfl⟩

/-! Productions that never give up. -/

instance : Total advance := inferInstanceAs (Total (move _))

instance (stop : Token → Bool) : Total (skipUntil stop) := inferInstanceAs (Total (move _))

instance : Total skipGroup := inferInstanceAs (Total (move _))

instance : Total current := inferInstanceAs (Total (look _))

instance (n : Nat) : Total (peek n) := inferInstanceAs (Total (look _))

instance : Total place := inferInstanceAs (Total (look _))

instance (q : Token → Bool) : Total (check q) := inferInstanceAs (Total (look _))

instance (k : Keyword) : Total (acceptKeyword k) := inferInstanceAs (Total (accept _))

instance (p : Punctuation) : Total (acceptPunctuation p) := inferInstanceAs (Total (accept _))

instance (word : String) : Total (acceptWord word) := inferInstanceAs (Total (accept _))

instance (expected : Expected) : Total (reportMissing expected) := by
  unfold reportMissing
  infer_instance

instance (expected : Expected) : Total (reportSurplus expected) := by
  unfold reportSurplus
  infer_instance

instance (p : Parser Unit) : Total (succeeds p) := by
  unfold succeeds
  infer_instance

instance : Total closeParen := by
  unfold closeParen
  infer_instance

instance (ends : Token → Bool) (parsed : Bool) : Total (finishItem ends parsed) := by
  unfold finishItem
  infer_instance

instance (parsed : Bool) : Total (finishClause parsed) := by
  unfold finishClause
  infer_instance

instance (ends : Token → Bool) (item : Parser α) : Total (commaList ends item) := by
  unfold commaList
  infer_instance

instance : Total identifierList := by
  unfold identifierList
  infer_instance

instance : Total columnNames := by
  unfold columnNames
  infer_instance

instance : Total typeArguments := by
  unfold typeArguments typeArgument
  infer_instance

instance (table : TokenKind → Option ω) : Total (operator? table) where
  result s := by
    simp only [operator?, current, look, bind_apply]
    cases table s.cursor.current.kind with
    | none => exact ⟨none, s, rfl⟩
    | some op => exact ⟨some op, _, rfl⟩

instance : Total partBehind := by
  refine @bind _ _ _ _ inferInstance fun part? => ?_
  cases part? <;> infer_instance

instance : Total namePart := by
  rw [namePart_eq]
  infer_instance

instance : Total explicitLabel := by
  refine @bind _ _ _ _ inferInstance fun label? => ?_
  cases label? <;> infer_instance

instance : Total tableLabel := by
  rw [tableLabel_eq]
  infer_instance

instance : Total columnLabel := by
  refine @bind _ _ _ _ inferInstance fun explicit => @bind _ _ _ _ inferInstance fun t => ?_
  split <;> infer_instance

instance : Total intoClause := by
  unfold intoClause
  infer_instance

instance : Total skipOptions := by
  unfold skipOptions
  infer_instance

instance : Total setOperator? := by
  unfold setOperator?
  infer_instance

instance : Total starPart := by
  refine @bind _ _ _ _ inferInstance fun part? => ?_
  cases part? <;> infer_instance

instance : Total qualifiedStar := by
  rw [qualifiedStar_eq]
  infer_instance

variable (inner : Level)

instance : Total (expressionList inner) := inferInstanceAs (Total (commaList _ _))

instance : Total (arguments inner) := by
  unfold arguments
  infer_instance

instance : Total (selectList inner) := by
  unfold selectList
  infer_instance

instance : Total (sourceList inner) := inferInstanceAs (Total (commaList _ _))

instance : Total (fromClause inner) := by
  unfold fromClause
  infer_instance

instance (k : Keyword) : Total (expressionClause inner k) := by
  unfold expressionClause
  infer_instance

instance : Total (groupClause inner) := by
  unfold groupClause
  infer_instance

instance : Total (orderClause inner) := by
  unfold orderClause
  infer_instance

set_option synthInstance.maxSize 512 in
instance : Total (selectQuery inner) := by
  unfold selectQuery
  infer_instance

end Total

end QueryNames.Grammar.Parser
