import QueryNames.Proofs.Blame.Grammar
import QueryNames.Proofs.Groups.Rules

/-!
What a run passes over to recover from a mistake. Main statement: where a recovery takes a token,
something is reported at that place or behind it.
-/

namespace QueryNames.Grammar

open Grammar.Parser

namespace Parser

/-- Tokens that do not belong are passed over. -/
inductive Recovers : {α : Type} → Parser α → State → Prop where
  -- At the end of a group, of an item, of a clause or of a statement something is left.
  | group {s : State} : s.cursor.current.isPunctuation .rightParen = false →
      s.cursor.skipGroup ≠ s.cursor → Recovers closeParen s
  | item {s : State} {ends : Token → Bool} [NeverOpens ends] :
      s.cursor.skipUntil ends ≠ s.cursor → Recovers (finishItem ends true) s
  | clause {s : State} : s.cursor.skipUntil endsClause ≠ s.cursor → Recovers (finishClause true) s
  | statement {s : State} : (finishStatement s).2.cursor ≠ s.cursor → Recovers finishStatement s
  -- No query begins.
  | otherStatement {s : State} : (otherStatement s).2.cursor ≠ s.cursor → Recovers otherStatement s
  -- The limit of nesting is reached.
  | depth {α : Type} {s : State} {ends : Token → Bool} :
      s.cursor.skipUntil ends ≠ s.cursor → Recovers (tooDeep ends : Parser α) s
  -- An item, the body of a clause, the head of a common table, the right side of a join or its
  -- condition cannot be read.
  | failure {α β : Type} {p : Parser α} {f : Option α → Parser β} {g : Unit → Parser β}
      {stop : Token → Bool} {s s' : State} [∀ u, Stepwise (g u)] : Production p →
      p s = (none, s') → f none = (skipUntil stop >>= g) → s'.cursor.skipUntil stop ≠ s'.cursor →
      Recovers (attempt p >>= f) s

namespace Recovers

/-- A skip that moves does not begin where it is to stop. -/
theorem stop_eq_false {ends : Token → Bool} [opens : NeverOpens ends] {s : State}
    (moves : s.cursor.skipUntil ends ≠ s.cursor) : ends s.cursor.current = false := by
  rw [Bool.eq_false_iff]
  intro stops
  have stays := skipUntil_stop stops (opens.kind_ne _ stops)
  exact moves (congrArg (fun r => r.2.cursor) stays)

/-- The surplus is complained of before it is passed over. -/
theorem surplus_blames {ends : Token → Bool} [NeverOpens ends] {expected : Expected}
    {p : Parser β} [Stepwise p] {s : State} (moves : s.cursor.skipUntil ends ≠ s.cursor) :
    ((do
        let _ ← onlyIf (true && !ends (← current)) (reportSurplus expected)
        p) s).2.Blames s.cursor.tokens := by
  have surplus : (true && !ends s.cursor.current) = true := by simp [stop_eq_false moves]
  have complained : ((onlyIf (true && !ends s.cursor.current) (reportSurplus expected)) s).2.Blames
      s.cursor.tokens := by
    rw [surplus]
    exact reportSurplus_blames expected s
  rw [bind_apply, current, look]
  exact bind_blames complained

/-- What is passed over is complained of. -/
theorem blames {α : Type} {p : Parser α} {s : State} (recovers : Recovers p s) :
    (p s).2.Blames s.cursor.tokens := by
  cases recovers with
  | group unclosed moves =>
      have stays : acceptPunctuation .rightParen s = (some false, s) := by
        simp [acceptPunctuation, accept, unclosed]
      rw [closeParen, bind_apply, stays]
      exact bind_blames (reportMissing_blames _ s)
  | item moves => exact surplus_blames moves
  | clause moves => exact surplus_blames moves
  | statement moves =>
      rw [finishStatement, bind_apply] at moves ⊢
      obtain ⟨atEnd, found⟩ : ∃ atEnd, atStatementEnd s = (some atEnd, s) := ⟨_, rfl⟩
      rw [found] at moves ⊢
      cases atEnd with
      | true => exact absurd rfl moves
      | false => exact bind_blames (reportSurplus_blames _ s)
  | otherStatement moves =>
      have complained : (reportOtherStatement s).2.Blames s.cursor.tokens := by
        unfold reportOtherStatement
        rw [bind_apply]
        dsimp only [current, look]
        cases s.cursor.current.kind with
        | keyword k =>
            dsimp only
            split
            · exact report_blames _ s
            · exact reportMissing_blames _ s
        | _ => exact reportMissing_blames _ s
      exact bind_blames complained
  | depth moves => exact bind_blames (report_blames .nestingTooDeep s)
  | failure production failed found moves =>
      have complained := production.answers.blames failed
      rw [bind_apply, Parser.attempt, failed]
      dsimp only
      rw [found]
      exact complained.onward ((Stepwise.advances _).onward _)

end Recovers

end Parser

end QueryNames.Grammar
