import QueryNames.Grammar.Script
import QueryNames.Proofs.Grammar.Cursor
import QueryNames.Proofs.Grammar.Onward
import QueryNames.Proofs.Grammar.Triple

/-!
What a run does to a state. Main statement: a parser only moves on and complains of the token that
it has come to, so that whatever both leave true is true of all that it comes to, and runs from
states that differ in nothing that it looks at find the same.
-/

namespace QueryNames.Grammar

/-- It is not lost by moving on, nor by a complaint of the current token. -/
structure Lasting (I : State → Prop) : Prop where
  onward {s : State} {c : Cursor} : I s → c.tokens <:+ s.cursor.tokens → I { s with cursor := c }
  complained {s : State} (complaint : Complaint) : I s → I (Parser.report complaint s).2

/-- It holds of states at one place only, and is not lost where both move on, nor where both
complain. -/
structure Coupling (R : State → State → Prop) : Prop where
  cursor {s t : State} : R s t → s.cursor = t.cursor
  onward {s t : State} {c : Cursor} : R s t → c.tokens <:+ s.cursor.tokens →
    R { s with cursor := c } { t with cursor := c }
  complained {s t : State} (complaint : Complaint) : R s t →
    R (Parser.report complaint s).2 (Parser.report complaint t).2

theorem Coupling.remaining {R : State → State → Prop} (coupling : Coupling R) {s t : State}
    (both : R s t) : t.remaining = s.remaining := by
  rw [State.remaining, State.remaining, coupling.cursor both]

theorem Lasting.coupling {I : State → Prop} (lasting : Lasting I) :
    Coupling fun s t => s = t ∧ I s where
  cursor both := congrArg State.cursor both.1
  onward := by
    rintro s _ c ⟨rfl, holds⟩ onward
    exact ⟨rfl, lasting.onward holds onward⟩
  complained := by
    rintro s _ complaint ⟨rfl, holds⟩
    exact ⟨rfl, lasting.complained complaint holds⟩

namespace Parser

/-- The parser only moves on and complains, and does so as what stands ahead tells it. -/
class Stepwise (p : Parser α) : Prop where
  couples {R : State → State → Prop} {s t : State} : Coupling R → R s t →
    (p s).1 = (p t).1 ∧ R (p s).2 (p t).2

namespace Stepwise

theorem keeps {p : Parser α} [Stepwise p] {I : State → Prop} {s : State} (lasting : Lasting I)
    (holds : I s) : I (p s).2 :=
  (couples (p := p) lasting.coupling ⟨rfl, holds⟩).2.2

theorem of_run {p : Parser α} [Stepwise p] {I : State → Prop} {s s' : State} {a? : Option α}
    (lasting : Lasting I) (holds : I s) (run : p s = (a?, s')) : I s' := by
  have result := keeps (p := p) lasting holds
  rwa [run] at result

section Coupled

variable {R : State → State → Prop} {s s' t : State} (coupling : Coupling R)

include coupling

theorem of_coupled {p : Parser α} [Stepwise p] {a? : Option α} (both : R s t)
    (run : p s = (a?, s')) : ∃ t', p t = (a?, t') ∧ R s' t' := by
  obtain ⟨same, both'⟩ := couples (p := p) coupling both
  rw [run] at same both'
  exact ⟨(p t).2, Prod.ext same.symm rfl, both'⟩

/-- Both rounds of a loop take tokens, or neither does. -/
theorem progress {t' : State} (both : R s t) (both' : R s' t') :
    t'.remaining < t.remaining ↔ s'.remaining < s.remaining := by
  rw [coupling.remaining both, coupling.remaining both']

end Coupled

theorem looking (f : Cursor → α) : Stepwise (look f) where
  couples coupling both := ⟨congrArg (fun c => some (f c)) (coupling.cursor both), both⟩

theorem move {f : Cursor → Cursor} (onward : ∀ c, (f c).tokens <:+ c.tokens) :
    Stepwise (Parser.move f) where
  couples {R s t} coupling both := by
    have moved : R { s with cursor := f s.cursor } { t with cursor := f s.cursor } :=
      coupling.onward both (onward s.cursor)
    have same : f s.cursor = f t.cursor := congrArg f (coupling.cursor both)
    unfold Parser.move
    rw [← same]
    exact ⟨rfl, moved⟩

instance (a : α) : Stepwise (pure a : Parser α) := ⟨fun _ both => ⟨rfl, both⟩⟩

instance : Stepwise (giveUp : Parser α) := ⟨fun _ both => ⟨rfl, both⟩⟩

instance (a? : Option α) : Stepwise (ofOption a?) := by
  cases a? with
  | none => exact inferInstanceAs (Stepwise giveUp)
  | some a => exact inferInstanceAs (Stepwise (pure a))

instance bind (p : Parser α) (f : α → Parser β) [Stepwise p] [rest : ∀ a, Stepwise (f a)] :
    Stepwise (p >>= f) where
  couples {R s t} coupling both := by
    rcases run : p s with ⟨a?, s'⟩
    obtain ⟨t', run', both'⟩ := of_coupled coupling both run
    rw [bind_apply, bind_apply, run, run']
    cases a? with
    | none => exact ⟨rfl, both'⟩
    | some a => exact (rest a).couples coupling both'

/-- The same, for what follows by cases on the result. -/
theorem next {p : Parser α} {f : α → Parser β} [Stepwise p] (rest : ∀ a, Stepwise (f a)) :
    Stepwise (p >>= f) := bind p f

instance (f : α → β) (p : Parser α) [Stepwise p] : Stepwise (f <$> p) :=
  bind p fun a => pure (f a)

instance (p : Parser α) [Stepwise p] : Stepwise (attempt p) where
  couples coupling both := by
    obtain ⟨same, both'⟩ := couples (p := p) coupling both
    exact ⟨congrArg some same, both'⟩

instance (condition : Prop) [Decidable condition] (p q : Parser α) [Stepwise p] [Stepwise q] :
    Stepwise (if condition then p else q) := by
  split <;> infer_instance

instance (condition : Bool) (p : Parser α) [Stepwise p] : Stepwise (onlyIf condition p) := by
  unfold onlyIf
  infer_instance

instance (condition : Bool) (p : Parser α) [Stepwise p] : Stepwise (requiredIf condition p) := by
  unfold requiredIf
  infer_instance

instance (f : Cursor → α) : Stepwise (look f) := looking f

instance : Stepwise current := looking _

instance (n : Nat) : Stepwise (peek n) := looking _

instance : Stepwise place := looking _

instance (q : Token → Bool) : Stepwise (check q) := looking _

instance : Stepwise advance := move Cursor.advance_suffix

instance (stop : Token → Bool) : Stepwise (skipUntil stop) := move (Cursor.skipUntil_suffix stop)

instance : Stepwise skipGroup := move (Cursor.skipUntil_suffix _)

instance : Stepwise skipParenthesized := move Cursor.skipParenthesized_suffix

instance (q : Token → Bool) : Stepwise (accept q) where
  couples {R s t} coupling both := by
    have same := coupling.cursor both
    have moved := coupling.onward both (Cursor.advance_suffix s.cursor)
    unfold accept
    rw [← same]
    split
    · exact ⟨rfl, moved⟩
    · exact ⟨rfl, both⟩

instance (complaint : Complaint) : Stepwise (report complaint) where
  couples {R s t} coupling both := by
    have always (s : State) : (report complaint s).1 = some () := by
      unfold report
      dsimp only
      split <;> rfl
    exact ⟨(always s).trans (always t).symm, coupling.complained complaint both⟩

instance (step : β → Parser (β × Bool)) (b : β) [round : ∀ b, Stepwise (step b)] :
    Stepwise (iterate step b) where
  couples {R s t} coupling both := by
    fun_induction iterate step b s generalizing t with
    | case1 b s s' run =>
        obtain ⟨t', run', both'⟩ := of_coupled coupling both run
        rw [iterate_nothing run']
        exact ⟨rfl, both'⟩
    | case2 b s b' more s' run goesOn ih =>
        obtain ⟨t', run', both'⟩ := of_coupled coupling both run
        rw [iterate_goesOn run' (goesOn.imp_right (progress coupling both both').2)]
        exact ih both'
    | case3 b s b' more s' run stops =>
        obtain ⟨t', run', both'⟩ := of_coupled coupling both run
        rw [iterate_ends run' fun goesOn =>
          stops (goesOn.imp_right (progress coupling both both').1)]
        exact ⟨rfl, both'⟩

instance (step : Parser (Option α × Bool)) [Stepwise step] : Stepwise (collect step) where
  couples {R s t} coupling both := by
    fun_induction collect step s generalizing t with
    | case1 s s' run =>
        obtain ⟨t', run', both'⟩ := of_coupled coupling both run
        rw [collect_nothing run']
        exact ⟨rfl, both'⟩
    | case2 s a? more s' run goesOn s'' last ih
    | case3 s a? more s' run goesOn as s'' last ih =>
        obtain ⟨t', run', both'⟩ := of_coupled coupling both run
        obtain ⟨same, ends⟩ := ih both'
        rw [last] at same ends
        rw [collect_goesOn run' (goesOn.imp_right (progress coupling both both').2), ← same]
        exact ⟨rfl, ends⟩
    | case4 s a? more s' run stops =>
        obtain ⟨t', run', both'⟩ := of_coupled coupling both run
        rw [collect_ends run' fun goesOn =>
          stops (goesOn.imp_right (progress coupling both both').1)]
        exact ⟨rfl, both'⟩

instance (operand : Parser α) (operator : Parser (Option ω)) (join : α → ω → α → α)
    [Stepwise operand] [Stepwise operator] : Stepwise (chainRight operand operator join) where
  couples {R s t} coupling both := by
    fun_induction chainRight operand operator join s generalizing t with
    | case1 s s' run =>
        obtain ⟨t', run', both'⟩ := of_coupled coupling both run
        rw [chainRight_nothing run']
        exact ⟨rfl, both'⟩
    | case2 s a s' run op s'' between goesOn b s''' last ih
    | case3 s a s' run op s'' between goesOn s''' last ih =>
        obtain ⟨t', run', both'⟩ := of_coupled coupling both run
        obtain ⟨t'', between', both''⟩ := of_coupled coupling both' between
        obtain ⟨same, ends⟩ := ih both''
        rw [last] at same ends
        rw [chainRight_more run' between' ((progress coupling both both'').2 goesOn), ← same]
        exact ⟨rfl, ends⟩
    | case4 s a s' run op s'' between stops =>
        obtain ⟨t', run', both'⟩ := of_coupled coupling both run
        obtain ⟨t'', between', both''⟩ := of_coupled coupling both' between
        rw [chainRight_still run' between' (mt (progress coupling both both'').1 stops)]
        exact ⟨rfl, both''⟩
    | case5 s a s' run op? s'' noOperator between =>
        obtain ⟨t', run', both'⟩ := of_coupled coupling both run
        obtain ⟨t'', between', both''⟩ := of_coupled coupling both' between
        rw [chainRight_stop run' between' noOperator]
        exact ⟨rfl, both''⟩

instance (operand : Parser α) (operator : Parser (Option ω)) (join : ω → α → α → α)
    (left : α) [Stepwise operand] [Stepwise operator] :
    Stepwise (chainRound operand operator join left) := by
  apply next
  rintro (_ | op)
  · infer_instance
  · apply next
    rintro (_ | right) <;> infer_instance

instance (operand : Parser α) (operator : Parser (Option ω)) (join : ω → α → α → α)
    [Stepwise operand] [Stepwise operator] : Stepwise (chainLeft operand operator join) := by
  rw [chainLeft_eq]
  infer_instance

/-! Words, signs and complaints. -/

instance (k : Keyword) : Stepwise (acceptKeyword k) := inferInstanceAs (Stepwise (accept _))

instance (p : Punctuation) : Stepwise (acceptPunctuation p) := inferInstanceAs (Stepwise (accept _))

instance (word : String) : Stepwise (acceptWord word) := inferInstanceAs (Stepwise (accept _))

instance (expected : Expected) : Stepwise (reportMissing expected) := by
  unfold reportMissing
  infer_instance

instance (expected : Expected) : Stepwise (reportSurplus expected) := by
  unfold reportSurplus
  infer_instance

instance (expected : Expected) : Stepwise (missing expected : Parser α) := by
  unfold missing
  infer_instance

instance (k : Keyword) : Stepwise (requireKeyword k) := by
  unfold requireKeyword
  infer_instance

instance (p : Punctuation) : Stepwise (requirePunctuation p) := by
  unfold requirePunctuation
  infer_instance

instance (p : Parser Unit) [Stepwise p] : Stepwise (succeeds p) := by
  unfold succeeds
  infer_instance

/-! Recovery, names and data types. -/

instance : Stepwise closeParen := by
  unfold closeParen
  infer_instance

instance (ends : Token → Bool) (parsed : Bool) : Stepwise (finishItem ends parsed) := by
  unfold finishItem
  infer_instance

instance (parsed : Bool) : Stepwise (finishClause parsed) := by
  unfold finishClause
  infer_instance

instance (ends : Token → Bool) (item : Parser α) [Stepwise item] :
    Stepwise (commaList ends item) := by
  unfold commaList
  infer_instance

instance (ends : Token → Bool) : Stepwise (tooDeep ends : Parser α) := by
  unfold tooDeep
  infer_instance

instance : Stepwise identifier := by
  unfold identifier
  infer_instance

instance (expected : Expected) : Stepwise (requireIdentifier expected) := by
  apply next
  rintro (_ | name) <;> infer_instance

instance : Stepwise partBehind := by
  apply next
  rintro (_ | part) <;> infer_instance

instance : Stepwise namePart := by
  rw [namePart_eq]
  infer_instance

instance : Stepwise qualifiedName := by
  rw [qualifiedName_eq]
  apply next
  rintro (_ | first) <;> infer_instance

instance : Stepwise identifierList := by
  unfold identifierList
  infer_instance

instance : Stepwise columnNames := by
  unfold columnNames
  infer_instance

instance : Stepwise typeArgument := by
  unfold typeArgument
  infer_instance

instance : Stepwise typeArguments := by
  unfold typeArguments
  infer_instance

instance : Stepwise dataType := by
  unfold dataType
  infer_instance

end Stepwise

end Parser

/-! Complaints that were made before. -/

/-- The first run complains, or the second has made as many complaints as before it. -/
def QuietBeside (earlier : List Diagnostic) (s t : State) : Prop :=
  s.cursor = t.cursor ∧ (Complained s ∨ s.reported = [] ∧ t.reported = earlier)

theorem coupling_quietBeside (earlier : List Diagnostic) : Coupling (QuietBeside earlier) where
  cursor := And.left
  onward := by
    rintro s t c ⟨same, complaints⟩ -
    exact ⟨rfl, complaints⟩
  complained := by
    rintro s t complaint ⟨same, -⟩
    have stays (s : State) : (Parser.report complaint s).2.cursor = s.cursor := by
      unfold Parser.report
      dsimp only
      split <;> rfl
    refine ⟨(stays s).trans (same.trans (stays t).symm), .inl ?_⟩
    exact (Parser.report_complains (P := fun _ => True) (E := Complained)).ends trivial

/-- A run without a complaint is the same behind complaints that were made before it. -/
theorem Parser.run_behind_complaints {p : Parser α} [Stepwise p] {a? : Option α} {c d : Cursor}
    (run : p ⟨c, []⟩ = (a?, ⟨d, []⟩)) (earlier : List Diagnostic) :
    p ⟨c, earlier⟩ = (a?, ⟨d, earlier⟩) := by
  have start : QuietBeside earlier ⟨c, []⟩ ⟨c, earlier⟩ := ⟨rfl, .inr ⟨rfl, rfl⟩⟩
  obtain ⟨⟨d', reported⟩, run', same, complained | ⟨-, kept⟩⟩ :=
    Stepwise.of_coupled (coupling_quietBeside earlier) start run
  · exact absurd rfl complained
  · cases same
    cases kept
    exact run'

end QueryNames.Grammar
