import QueryNames.Proofs.Dangling.Operator

/-!
What comes to the end of an expression, where something is missed behind it. Main statements: up to
that end, nothing depends on what follows.
-/

namespace QueryNames.Grammar.Parser

variable {x : Overhang}

namespace Tallies

/-- At the end of the expression there is nothing to show. -/
theorem inside {p : Parser α} (advances : Advances p)
    (runs : ∀ {c d}, x.Paired c d → Ahead 1 c → Astray x (p ⟨c, []⟩).2 ∨ x.Alike p c d) :
    Tallies x p where
  runs {c d} paired := by
    rcases paired.view with ⟨rfl, rfl⟩ | ⟨t, c', d', goesOn, rfl, rfl, rest⟩
    · exact .inl (.inr ((advances.onward ⟨x.left, []⟩).stays rfl))
    · exact runs paired (.step goesOn (.zero c'))
  advances := advances

instance ofDangles (p : Parser α) [dangles : Dangles x 1 p] : Tallies x p := by
  apply inside dangles.advances
  intro c d paired ahead
  rcases dangles.runs paired ahead with complained | alike | ⟨-, a, -, -, run, -⟩
  · exact .inl (.inl complained)
  · exact .inr alike
  · exact .inl (.inr (by rw [run]))

instance bind (p : Parser α) (f : α → Parser β) [first : Tallies x p]
    [rest : ∀ a, Tallies x (f a)] : Tallies x (p >>= f) where
  runs {c d} paired := by
    rcases first.runs paired with astray | ⟨_ | a, c', d', run, run', paired'⟩
    · exact .inl (astray.onward (bind_onward (fun a => (rest a).advances) _))
    · exact .inr (alike_none run run' paired')
    · rcases (rest a).runs paired' with astray | alike
      · exact .inl (by rwa [bind_some run])
      · exact .inr (alike_bind run run' alike)
  advances := first.advances.bind fun a => (rest a).advances

/-- The same, for what follows by cases on the result. -/
theorem next {p : Parser α} {f : α → Parser β} [Tallies x p] (rest : ∀ a, Tallies x (f a)) :
    Tallies x (p >>= f) := bind p f

instance (f : α → β) (p : Parser α) [Tallies x p] : Tallies x (f <$> p) :=
  bind p fun a => pure (f a)

instance (p : Parser α) [tallies : Tallies x p] : Tallies x (attempt p) where
  runs paired := by
    rcases tallies.runs paired with astray | ⟨a?, c', d', run, run', paired'⟩
    · exact .inl astray
    · exact .inr (alike (by rw [attempt, run]) (by rw [attempt, run']) paired')
  advances := tallies.advances.attempt

instance (condition : Prop) [Decidable condition] (p q : Parser α) [Tallies x p] [Tallies x q] :
    Tallies x (if condition then p else q) := by
  split <;> infer_instance

instance (condition : Bool) (p : Parser α) [Tallies x p] : Tallies x (onlyIf condition p) := by
  unfold onlyIf
  infer_instance

instance (condition : Bool) (p : Parser α) [Tallies x p] : Tallies x (requiredIf condition p) := by
  unfold requiredIf
  infer_instance

/-! Looking. -/

/-- What is seen before the end of the expression is the same in both runs. -/
theorem looking {f : Cursor → α} (agree : ∀ {c d}, x.Paired c d → Ahead 1 c → f c = f d) :
    Tallies x (look f) := by
  apply inside .look
  intro c d paired ahead
  exact .inr (alike rfl (congrArg (fun a => (some a, _)) (agree paired ahead).symm) paired)

theorem same_current {c d : Cursor} (paired : x.Paired c d) (ahead : Ahead 1 c) :
    c.current = d.current := by
  obtain ⟨t, c', d', -, rfl, rfl, -, -⟩ := paired.inside ahead
  rfl

instance : Tallies x current := looking same_current

instance : Tallies x place :=
  looking fun paired ahead => congrArg Token.location (same_current paired ahead)

instance (q : Token → Bool) : Tallies x (check q) :=
  looking fun paired ahead => congrArg q (same_current paired ahead)

instance : Tallies x (look Cursor.opensQuery) := looking fun paired _ => paired.opensQuery

instance : Tallies x (look Cursor.opensQueryDeep) := looking fun paired _ => paired.opensQueryDeep

instance : Tallies x (look Cursor.startsQuery) := looking Overhang.Paired.startsQuery

/-- The next token may be the one behind the expression. -/
theorem peek {g : Token → Parser α} (edges : g x.stop = g x.next)
    (rest : ∀ t, Tallies x (g t)) : Tallies x (peek 1 >>= g) := by
  apply inside (.bind .look fun t => (rest t).advances)
  intro c d paired ahead
  have same := paired.peek edges ahead
  have found := (rest (c.peek 1)).runs paired
  simp only [Overhang.Alike, bind_apply, Parser.look, ← same]
  exact found

/-! Moving. -/

theorem move {f : Cursor → Cursor} (onward : ∀ c, (f c).tokens <:+ c.tokens)
    (moves : ∀ {c d}, x.Paired c d → x.Paired (f c) (f d) ∨ f c = x.left) :
    Tallies x (Parser.move f) where
  runs paired := by
    rcases moves paired with paired' | ends
    · exact .inr (alike rfl rfl paired')
    · exact .inl (.inr ends)
  advances := .move onward

instance : Tallies x advance :=
  inside (.move Cursor.advance_suffix) fun paired ahead =>
    .inr (alike rfl rfl (paired.advance ahead))

instance (stop : Token → Bool) : Tallies x (skipUntil stop) :=
  move (Cursor.skipUntil_suffix stop) (Overhang.Paired.skipUntil stop)

instance : Tallies x skipGroup := inferInstanceAs (Tallies x (skipUntil _))

instance : Tallies x skipParenthesized where
  runs paired := by
    rcases paired.skipParenthesized with paired' | ⟨ends, -⟩
    · exact .inr (alike rfl rfl paired')
    · exact .inl (.inr ends)

instance (q : Token → Bool) : Tallies x (accept q) := by
  apply inside .accept
  intro c d paired ahead
  have same := same_current paired ahead
  have moved := paired.advance ahead
  cases found : q c.current with
  | true => exact .inr (alike (accept_present found) (accept_present (same ▸ found)) moved)
  | false => exact .inr (alike (accept_absent found) (accept_absent (same ▸ found)) paired)

instance (k : Keyword) : Tallies x (acceptKeyword k) := inferInstanceAs (Tallies x (accept _))

instance (p : Punctuation) : Tallies x (acceptPunctuation p) :=
  inferInstanceAs (Tallies x (accept _))

instance (word : String) : Tallies x (acceptWord word) := inferInstanceAs (Tallies x (accept _))

/-! Complaints and recovery. -/

instance (complaint : Complaint) : Tallies x (report complaint) where
  runs _ := .inl (.inl ((report_complains (E := Complained)).ends (P := fun _ => True) trivial))

instance (expected : Expected) : Tallies x (reportSurplus expected) := by
  unfold reportSurplus
  infer_instance

instance (k : Keyword) : Tallies x (requireKeyword k) := by
  unfold requireKeyword
  infer_instance

instance (p : Parser Unit) [Tallies x p] : Tallies x (succeeds p) := by
  unfold succeeds
  infer_instance

instance (ends : Token → Bool) (parsed : Bool) : Tallies x (finishItem ends parsed) := by
  unfold finishItem
  infer_instance

instance (parsed : Bool) : Tallies x (finishClause parsed) := by
  unfold finishClause
  infer_instance

/-! Repetition. -/

instance (step : β → Parser (β × Bool)) (b : β) [round : ∀ b, Tallies x (step b)] :
    Tallies x (iterate step b) where
  runs paired := by
    apply iterate_together (S := fun r _ => Astray x r.2) _ b paired
    intro b c d paired
    rcases (round b).runs paired with astray | alike
    · exact .inl (astray.onward (iterate_onward (fun b => (round b).advances) b _))
    · exact .inr alike
  advances := .iterate (fun b => (round b).advances) b

instance (step : Parser (Option α × Bool)) [round : Tallies x step] : Tallies x (collect step) where
  runs paired := collect_together round.advances Astray.onward round.runs paired
  advances := .collect round.advances

instance (operand : Parser α) (operator : Parser (Option ω)) (join : α → ω → α → α)
    [first : Tallies x operand] [between : Tallies x operator] :
    Tallies x (chainRight operand operator join) where
  runs paired := chainRight_together first.advances between.advances Astray.onward first.runs
    between.runs paired
  advances := .chainRight first.advances between.advances

instance (ends : Token → Bool) (item : Parser α) [Tallies x item] :
    Tallies x (commaList ends item) := by
  unfold commaList
  infer_instance

end Tallies

end QueryNames.Grammar.Parser
