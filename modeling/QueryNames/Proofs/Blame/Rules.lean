import QueryNames.Proofs.Stepwise.Query
import QueryNames.Proofs.Stepwise.Runs

/-!
Parsers that answer for giving up. Main statements: the rules by which a parser that gives up
leaves a complaint of a token that was ahead of it.
-/

namespace QueryNames.Grammar

/-- Something that the grammar does not allow is reported at one of the tokens. -/
def State.Blames (tokens : List Token) (s : State) : Prop :=
  ∃ d ∈ s.reported, d.isGrammatical = true ∧ ∃ t ∈ tokens, d.location = t.location

namespace State.Blames

variable {tokens wider : List Token} {s s' : State}

theorem onward (blames : s.Blames tokens) (onward : Onward s s') : s'.Blames tokens := by
  obtain ⟨d, member, rest⟩ := blames
  exact ⟨d, onward.reported.subset member, rest⟩

theorem widen (blames : s.Blames tokens) (among : tokens <:+ wider) : s.Blames wider := by
  obtain ⟨d, member, grammatical, t, ahead, place⟩ := blames
  exact ⟨d, member, grammatical, t, among.subset ahead, place⟩

end State.Blames

namespace Parser

/-- Where it gives up, something is reported at a token that was ahead of it. -/
class Answers (p : Parser α) : Prop where
  blames {s s' : State} : p s = (none, s') → s'.Blames s.cursor.tokens

/-- A token gets a complaint of its own, or the last one is of it. -/
theorem report_blames (complaint : Complaint) (s : State) :
    (report complaint s).2.Blames s.cursor.tokens := by
  have here : s.cursor.current ∈ s.cursor.tokens := List.mem_cons_self
  unfold report
  dsimp only
  split
  · rename_i again
    obtain ⟨d, last, found⟩ := (Option.any_eq_true _ _).1 again
    obtain ⟨grammatical, place⟩ := Bool.and_eq_true_iff.1 found
    exact ⟨d, List.mem_of_head? last, grammatical, _, here, eq_of_beq place⟩
  · exact ⟨_, List.mem_cons_self, rfl, _, here, rfl⟩

theorem reportMissing_blames (expected : Expected) (s : State) :
    (reportMissing expected s).2.Blames s.cursor.tokens := report_blames _ s

theorem reportSurplus_blames (expected : Expected) (s : State) :
    (reportSurplus expected s).2.Blames s.cursor.tokens := report_blames _ s

/-- What follows takes nothing back. -/
theorem bind_blames {p : Parser α} {f : α → Parser β} [∀ a, Stepwise (f a)] {s : State}
    {tokens : List Token} (blames : (p s).2.Blames tokens) : ((p >>= f) s).2.Blames tokens :=
  blames.onward (bind_onward (fun a => Stepwise.advances (f a)) s)

namespace Answers

instance (priority := low) ofTotal (p : Parser α) [Total p] : Answers p where
  blames {s s'} run := by
    obtain ⟨a, s'', result⟩ := Total.result (p := p) s
    rw [run] at result
    cases result

instance bind (p : Parser α) (f : α → Parser β) [first : Answers p] [Stepwise p]
    [rest : ∀ a, Answers (f a)] : Answers (p >>= f) where
  blames {s s'} run := by
    rw [bind_apply] at run
    rcases found : p s with ⟨_ | a, s₁⟩ <;> rw [found] at run <;> dsimp only at run
    · cases run
      exact first.blames found
    · have come := (Stepwise.advances p).onward s
      rw [found] at come
      exact ((rest a).blames run).widen come.tokens

/-- The same, for what follows by cases on the result. -/
theorem next {p : Parser α} {f : α → Parser β} [Answers p] [Stepwise p]
    (rest : ∀ a, Answers (f a)) : Answers (p >>= f) := bind p f

instance (f : α → β) (p : Parser α) [Answers p] [Stepwise p] : Answers (f <$> p) :=
  bind p fun a => pure (f a)

/-- Who gives up may be found out later only. -/
instance (priority := high) attempt (p : Parser α) (f : Option α → Parser β) [first : Answers p]
    [Stepwise p] [later : Stepwise (f none)] [rest : ∀ a, Answers (f (some a))] :
    Answers (attempt p >>= f) where
  blames {s s'} run := by
    have come := (Stepwise.advances p).onward s
    rw [bind_apply, Parser.attempt] at run
    rcases found : p s with ⟨_ | a, s₁⟩ <;> rw [found] at run come <;> dsimp only at run
    · have after := (Stepwise.advances (f none)).onward s₁
      rw [run] at after
      exact (first.blames found).onward after
    · exact ((rest a).blames run).widen come.tokens

/-- The same, where what follows answers for it. -/
instance instead (p : Parser α) (f : Option α → Parser β) [Stepwise p] [Answers (f none)]
    [∀ a, Answers (f (some a))] : Answers (Parser.attempt p >>= f) := by
  have each (a? : Option α) : Answers (f a?) := by cases a? <;> infer_instance
  exact bind (Parser.attempt p) f

instance (condition : Prop) [Decidable condition] (p q : Parser α) [Answers p] [Answers q] :
    Answers (if condition then p else q) := by
  split <;> infer_instance

instance (condition : Bool) (p : Parser α) [Answers p] [Stepwise p] :
    Answers (requiredIf condition p) := by
  unfold requiredIf
  infer_instance

instance (a : α) : Answers (ofOption (some a)) := inferInstanceAs (Answers (pure a))

theorem always {p : Parser α} (blames : ∀ s, (p s).2.Blames s.cursor.tokens) : Answers p where
  blames {s s'} run := by
    have result := blames s
    rwa [run] at result

instance (expected : Expected) : Answers (missing expected : Parser α) :=
  always fun s => bind_blames (reportMissing_blames expected s)

instance (ends : Token → Bool) : Answers (tooDeep ends : Parser α) :=
  always fun s => bind_blames (report_blames .nestingTooDeep s)

instance (k : Keyword) : Answers (requireKeyword k) := by
  unfold requireKeyword
  infer_instance

instance (p : Punctuation) : Answers (requirePunctuation p) := by
  unfold requirePunctuation
  infer_instance

instance (step : β → Parser (β × Bool)) (b : β) [round : ∀ b, Answers (step b)]
    [advances : ∀ b, Stepwise (step b)] : Answers (iterate step b) where
  blames {s s'} run := by
    fun_induction iterate step b s with
    | case1 b s s₁ found =>
        cases run
        exact (round b).blames found
    | case2 b s b' more s₁ found _ ih =>
        have come := (Stepwise.advances (step b)).onward s
        rw [found] at come
        exact (ih run).widen come.tokens
    | case3 => cases run

instance (step : Parser (Option α × Bool)) [round : Answers step] [Stepwise step] :
    Answers (collect step) where
  blames {s s'} run := by
    fun_induction collect step s generalizing s' with
    | case1 s s₁ found =>
        cases run
        exact round.blames found
    | case2 s a? more s₁ found _ s₂ last ih =>
        cases run
        have come := (Stepwise.advances step).onward s
        rw [found] at come
        exact (ih last).widen come.tokens
    | case3 => cases run
    | case4 => cases run

/-- A right side that gives up is left out. -/
instance (operand : Parser α) (operator : Parser (Option ω)) (join : ω → α → α → α)
    [Answers operand] [Stepwise operand] [Total operator] :
    Answers (chainLeft operand operator join) := by
  have round (left : α) : Total (chainRound operand operator join left) := by
    refine @Total.bind _ _ _ _ inferInstance fun op? => ?_
    cases op? with
    | none => infer_instance
    | some op =>
        refine @Total.bind _ _ _ _ inferInstance fun right? => ?_
        cases right? <;> infer_instance
  rw [chainLeft_eq]
  infer_instance

instance (operand : Parser α) (operator : Parser (Option ω)) (join : α → ω → α → α)
    [first : Answers operand] : Answers (chainRight operand operator join) where
  blames {s s'} run := by
    rw [chainRight] at run
    split at run
    · rename_i found
      cases run
      exact first.blames found
    · repeat' split at run
      all_goals cases run

end Answers

end Parser

end QueryNames.Grammar
