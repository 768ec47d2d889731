import QueryNames.Proofs.Grammar.Onward

/-!
Two runs of a parser over tokens of which the second have more at their end. Main statements: a loop
of which every round does the same in both runs, or spoils the first, does so too.
-/

namespace QueryNames.Grammar.Parser

/-- Wherever the two places are, the same number of tokens more is ahead of the second. -/
class Lockstep (R : Cursor → Cursor → Prop) : Prop where
  remaining : ∃ more, ∀ {c d : Cursor}, R c d → d.remaining = c.remaining + more

/-- From both places the parser finds the same, without a complaint, and ends at places that belong
together as well. -/
def Together (R : Cursor → Cursor → Prop) (p : Parser α) (c d : Cursor) : Prop :=
  ∃ a? c' d', p ⟨c, []⟩ = (a?, ⟨c', []⟩) ∧ p ⟨d, []⟩ = (a?, ⟨d', []⟩) ∧ R c' d'

/-- What spoils a run spoils whatever comes of it. -/
def Persists (spoils : State → Prop) : Prop := ∀ {s s' : State}, spoils s → Onward s s' → spoils s'

variable {R : Cursor → Cursor → Prop} {spoils : State → Prop} {c d : Cursor}

theorem together {p : Parser α} {a? : Option α} {c' d' : Cursor}
    (run : p ⟨c, []⟩ = (a?, ⟨c', []⟩)) (run' : p ⟨d, []⟩ = (a?, ⟨d', []⟩)) (related : R c' d') :
    Together R p c d :=
  ⟨a?, c', d', run, run', related⟩

variable [lockstep : Lockstep R]

/-- The one run takes tokens where the other does. -/
theorem progress {c' d' : Cursor} (before : R c d) (after : R c' d') :
    (State.mk d' []).remaining < (State.mk d []).remaining ↔
      (State.mk c' []).remaining < (State.mk c []).remaining := by
  obtain ⟨more, remaining⟩ := lockstep.remaining
  simp only [State.remaining, remaining before, remaining after]
  omega

/-! A round takes tokens in both runs or in neither, so both loops end in the same round. -/

theorem iterate_together {step : β → Parser (β × Bool)}
    {S : Option β × State → Option β × State → Prop}
    (round : ∀ b {c d}, R c d →
      S (iterate step b ⟨c, []⟩) (iterate step b ⟨d, []⟩) ∨ Together R (step b) c d)
    (b : β) (related : R c d) :
    S (iterate step b ⟨c, []⟩) (iterate step b ⟨d, []⟩) ∨ Together R (iterate step b) c d := by
  induction length : (State.mk c []).remaining using Nat.strongRecOn generalizing b c d with
  | ind n ih =>
      rcases round b related with spoilt | ⟨_ | ⟨b', more⟩, c', d', run, run', related'⟩
      · exact .inl spoilt
      · exact .inr (together (iterate_nothing run) (iterate_nothing run') related')
      have alike := progress related related'
      by_cases goesOn : more = true ∧ (State.mk c' []).remaining < (State.mk c []).remaining
      · simp only [Together]
        rw [iterate_goesOn run goesOn, iterate_goesOn run' (goesOn.imp_right alike.2)]
        exact ih _ (length ▸ goesOn.2) b' related' rfl
      · have ends' := fun goesOn' => goesOn (And.imp_right alike.1 goesOn')
        exact .inr (together (iterate_ends run goesOn) (iterate_ends run' ends') related')

theorem collect_together {step : Parser (Option α × Bool)} (advances : Advances step)
    (persists : Persists spoils)
    (round : ∀ {c d}, R c d → spoils (step ⟨c, []⟩).2 ∨ Together R step c d) (related : R c d) :
    spoils (collect step ⟨c, []⟩).2 ∨ Together R (collect step) c d := by
  induction length : (State.mk c []).remaining using Nat.strongRecOn generalizing c d with
  | ind n ih =>
      rcases round related with spoilt | ⟨_ | ⟨a?, more⟩, c', d', run, run', related'⟩
      · exact .inl (persists spoilt (collect_onward advances _))
      · exact .inr (together (collect_nothing run) (collect_nothing run') related')
      have alike := progress related related'
      by_cases goesOn : more = true ∧ (State.mk c' []).remaining < (State.mk c []).remaining
      · have whole := collect_goesOn run goesOn
        have whole' := collect_goesOn run' (goesOn.imp_right alike.2)
        rcases ih _ (length ▸ goesOn.2) related' rfl with
          spoilt | ⟨as?, c'', d'', rest, rest', related''⟩
        · rw [whole]
          exact .inl spoilt
        · rw [rest] at whole
          rw [rest'] at whole'
          exact .inr (together whole whole' related'')
      · have ends' := fun goesOn' => goesOn (And.imp_right alike.1 goesOn')
        exact .inr (together (collect_ends run goesOn) (collect_ends run' ends') related')

theorem chainRight_together {operand : Parser α} {operator : Parser (Option ω)}
    {join : α → ω → α → α} (operands : Advances operand) (operators : Advances operator)
    (persists : Persists spoils)
    (first : ∀ {c d}, R c d → spoils (operand ⟨c, []⟩).2 ∨ Together R operand c d)
    (between : ∀ {c d}, R c d → spoils (operator ⟨c, []⟩).2 ∨ Together R operator c d)
    (related : R c d) :
    spoils (chainRight operand operator join ⟨c, []⟩).2 ∨
      Together R (chainRight operand operator join) c d := by
  induction length : (State.mk c []).remaining using Nat.strongRecOn generalizing c d with
  | ind n ih =>
      rcases first related with spoilt | ⟨_ | a, c₁, d₁, run, run', related₁⟩
      · exact .inl (persists spoilt (operand_onward operands operators _))
      · exact .inr (together (chainRight_nothing run) (chainRight_nothing run') related₁)
      rcases between related₁ with spoilt | ⟨_ | _ | op, c₂, d₂, next, next', related₂⟩
      · exact .inl (persists spoilt (chainRight_onward operands operators run))
      · exact .inr (together (chainRight_stop run next nofun) (chainRight_stop run' next' nofun)
          related₂)
      · exact .inr (together (chainRight_stop run next nofun) (chainRight_stop run' next' nofun)
          related₂)
      have alike := progress related related₂
      by_cases goesOn : (State.mk c₂ []).remaining < (State.mk c []).remaining
      · have whole : chainRight operand operator join ⟨c, []⟩ = _ :=
          chainRight_more run next goesOn
        have whole' : chainRight operand operator join ⟨d, []⟩ = _ :=
          chainRight_more run' next' (alike.2 goesOn)
        rcases ih _ (length ▸ goesOn) related₂ rfl with spoilt | ⟨b?, c₃, d₃, rest, rest', related₃⟩
        · rw [whole]
          exact .inl spoilt
        · rw [rest] at whole
          rw [rest'] at whole'
          exact .inr (together whole whole' related₃)
      · exact .inr (together (chainRight_still run next goesOn)
          (chainRight_still run' next' (mt alike.1 goesOn)) related₂)

end QueryNames.Grammar.Parser
