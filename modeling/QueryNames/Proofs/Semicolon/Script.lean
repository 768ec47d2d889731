import QueryNames.Proofs.Parallel.Enclosed
import QueryNames.Proofs.Semicolon.Query

/-!
Scripts before a semicolon. Main statement: a script without a complaint is what a longer one begins
with, and the rest of that is the script behind the semicolon.
-/

namespace QueryNames.Grammar

variable {edge : Edge}

namespace Parser.Follows

instance : Follows edge 0 skipStatement := by
  have skips : Follows edge 0
      (Parser.skipUntil fun t => t.isPunctuation .semicolon || t.isKeyword .select) :=
    skipUntil rfl
  unfold skipStatement
  infer_instance

instance : Follows edge 0 finishStatement := by
  apply looking (k := 0)
  · intro c d abreast
    have starts := abreast.startsQuery
    rcases abreast.view with ⟨rfl, rfl⟩ | ⟨t, c', d', -, rfl, rfl, -⟩
    · rfl
    · rw [starts]
      rfl
  · intro c d abreast found
    exact .zero c

instance : Follows edge 1 query := by
  unfold query
  infer_instance

instance : Follows edge n otherStatement :=
  ⟨otherStatement_advances, fun _ _ => .inl otherStatement_complains⟩

instance isAtEnd (f : Bool → Parser α) [rest : ∀ ends, Follows edge (n + 1) (f ends)] :
    Follows edge (n + 1) (look Cursor.isAtEnd >>= f) :=
  inferInstanceAs (Follows edge (n + 1) (Parser.current >>= fun t => f t.isEnd))

instance : Follows edge 1 statement := by
  unfold statement
  infer_instance

end Parser.Follows

namespace Parser

/-- Before the end a statement without a complaint takes a step. -/
theorem statement_onward {t : Token} {c : Cursor} (goesOn : t.kind ≠ .endOfInput)
    {found? : Option (Option Query × Bool)} {s : State}
    (run : statement ⟨⟨t, c.tokens⟩, []⟩ = (found?, s)) (quiet : s.reported = []) :
    ∃ query?, found? = some (query?, true) ∧
      s.remaining < (State.mk ⟨t, c.tokens⟩ []).remaining := by
  have step : (Cursor.mk t c.tokens).advance = c := Cursor.advance_step goesOn c
  have shorter {s : State} (onward : Onward ⟨c, []⟩ s) :
      s.remaining < (State.mk ⟨t, c.tokens⟩ []).remaining := by
    apply Nat.lt_of_le_of_lt onward.remaining_le
    simp [State.remaining, Cursor.remaining, Cursor.tokens]
  rcases statement_quiet run quiet with ⟨-, found, rfl⟩ | ⟨ends, -, -⟩ | ⟨starts, q, found, reads⟩
  · rw [step]
    exact ⟨none, found, shorter (.refl _)⟩
  · exact absurd (Token.isEnd_iff.1 ends) goesOn
  · have onward := query_onward (n := 39) starts
    rw [step, show (level (39 + 1)).query _ = _ from reads] at onward
    exact ⟨some q, found, shorter onward⟩

/-- Over the longer list a script goes on behind the semicolon, where it has nothing to say yet. -/
theorem script_abreast {stop place : Location} {behind : Cursor} {c d : Cursor}
    (abreast : Abreast ⟨stop, place, behind.tokens⟩ c d)
    {queries others : List Query} {s s' : State}
    (run : script ⟨c, []⟩ = (some queries, s)) (quiet : s.reported = [])
    (rest : script ⟨behind, []⟩ = (some others, s')) :
    script ⟨d, []⟩ = (some (queries ++ others), s') := by
  -- on the tokens that are left, of which a statement without a complaint takes at least one
  induction length : c.remaining using Nat.strongRecOn generalizing c d queries with
  | ind n ih =>
      rcases abreast.view with ⟨rfl, rfl⟩ | ⟨t, c', d', goesOn, rfl, rfl, ahead⟩
      · rw [script_end rfl] at run
        cases run
        have semicolon : statement ⟨Edge.right ⟨stop, place, behind.tokens⟩, []⟩ =
            (some (none, true), ⟨behind, []⟩) := rfl
        apply collect_more semicolon _ rest
        simp [State.remaining, Cursor.remaining, Edge.right, Cursor.tokens]
      · obtain ⟨a?, more, s₁, first, quiet₁, later⟩ := collect_quiet statement_advances run quiet
        obtain ⟨query?, same, fewer⟩ := statement_onward goesOn first quiet₁
        obtain ⟨rfl, rfl⟩ : a? = query? ∧ more = true := by simpa using same
        have follows : Follows ⟨stop, place, behind.tokens⟩ 1 statement := inferInstance
        rcases follows.runs abreast (.step goesOn (.zero c')) with
          complained | ⟨found?, c₁, d₁, run₁, run₁', abreast₁⟩
        · rw [first] at complained
          exact absurd quiet₁ complained
        · rw [first] at run₁
          cases run₁
          rcases later with ⟨queries', -, -, rfl, run'⟩ | ⟨stops, -, -⟩
          · have shorter : c₁.remaining < n := length ▸ fewer
            have whole := ih c₁.remaining shorter abreast₁ run' rfl
            rw [List.append_assoc]
            apply collect_more run₁' _ whole
            exact (progress abreast abreast₁).2 fewer
          · exact absurd ⟨rfl, fewer⟩ stops

end Parser

end QueryNames.Grammar
