import QueryNames.Proofs.Grammar.Absent
import QueryNames.Proofs.Grammar.Total

/-!
Where a run has come to. Main statements: no parser goes back or takes a complaint back, so that one
which something is wrong with stays so, and what complains.
-/

namespace QueryNames.Grammar

/-- The run that came to `origin` has come to `s`. -/
structure Onward (origin s : State) : Prop where
  tokens : s.cursor.tokens <:+ origin.cursor.tokens
  reported : origin.reported <:+ s.reported

namespace Onward

variable {origin s s' : State}

theorem refl (s : State) : Onward s s := ⟨List.suffix_rfl, List.suffix_rfl⟩

theorem trans (first : Onward origin s) (rest : Onward s s') : Onward origin s' :=
  ⟨rest.tokens.trans first.tokens, first.reported.trans rest.reported⟩

theorem remaining_le (onward : Onward origin s) : s.remaining ≤ origin.remaining := by
  have shorter := onward.tokens.length_le
  simp only [Cursor.tokens, List.length_cons] at shorter
  simp only [State.remaining, Cursor.remaining]
  omega

/-- From the last token there is nowhere to go. -/
theorem stays (onward : Onward origin s) (last : origin.cursor.ahead = []) :
    s.cursor = origin.cursor := by
  obtain ⟨⟨t, ts⟩, reported⟩ := s
  obtain ⟨⟨u, us⟩, reported'⟩ := origin
  obtain rfl : us = [] := last
  have shorter := onward.tokens.length_le
  have nothing : ts = [] := List.eq_nil_of_length_eq_zero (by
    simp only [Cursor.tokens, List.length_cons, List.length_nil] at shorter
    omega)
  obtain rfl := nothing
  have same : [t] = [u] := onward.tokens.eq_of_length rfl
  obtain rfl : t = u := (List.cons.inj same).1
  rfl

end Onward

namespace Parser

/-- The parser neither goes back nor takes a complaint back. -/
def Advances (p : Parser α) : Prop :=
  ∀ origin, Triple (Onward origin) p (fun _ => Onward origin) (Onward origin)

namespace Advances

theorem onward {p : Parser α} (advances : Advances p) (s : State) : Onward s (p s).2 :=
  (advances s).ends (.refl s)

theorem pure {a : α} : Advances (pure a : Parser α) := fun _ => .pure fun _ => id

theorem giveUp : Advances (giveUp : Parser α) := fun _ => .giveUp fun _ => id

theorem bind {p : Parser α} {f : α → Parser β} (first : Advances p)
    (rest : ∀ a, Advances (f a)) : Advances (p >>= f) :=
  fun origin => (first origin).bind fun a => rest a origin

theorem attempt {p : Parser α} (advances : Advances p) : Advances (attempt p) :=
  fun origin => (advances origin).attempt

theorem onlyIf {condition : Bool} {p : Parser α} (advances : Advances p) :
    Advances (onlyIf condition p) := by
  cases condition with
  | false => exact .pure
  | true => exact advances.attempt

theorem ofOption {a? : Option α} : Advances (ofOption a?) := by
  cases a? with
  | none => exact .giveUp
  | some a => exact .pure

theorem look {f : Cursor → α} : Advances (look f) := fun _ => .look fun _ => id

theorem move {f : Cursor → Cursor} (forward : ∀ c, (f c).tokens <:+ c.tokens) :
    Advances (move f) :=
  fun _ => .move fun s onward => ⟨(forward s.cursor).trans onward.tokens, onward.reported⟩

theorem accept {q : Token → Bool} : Advances (accept q) :=
  fun _ => .accept
    (fun s onward _ => ⟨(Cursor.advance_suffix s.cursor).trans onward.tokens, onward.reported⟩)
    (fun _ onward _ => onward)

theorem report {complaint : Complaint} : Advances (report complaint) :=
  fun _ => .report fun _ _ onward more => ⟨onward.tokens, onward.reported.trans more⟩

theorem iterate {step : β → Parser (β × Bool)} (round : ∀ b, Advances (step b)) (b : β) :
    Advances (iterate step b) :=
  fun origin => .iterate (I := fun _ => Onward origin) (fun b => round b origin) b

theorem collect {step : Parser (Option α × Bool)} (round : Advances step) :
    Advances (collect step) :=
  fun origin => .collect (I := fun _ => Onward origin) (fun _ => round origin) []

theorem chainRight {operand : Parser α} {operator : Parser (Option ω)} {join : α → ω → α → α}
    (operands : Advances operand) (operators : Advances operator) :
    Advances (chainRight operand operator join) :=
  fun origin => .chainRight (ι := Unit) (I := fun _ => Onward origin) (f := fun _ _ => ())
    (fun _ => operands origin) (fun _ => operators origin) (fun _ _ _ _ _ => id) ()

end Advances

end Parser

/-- Something is wrong already. -/
def Complained (s : State) : Prop := s.reported ≠ []

theorem Complained.onward {s s' : State} (complained : Complained s) (onward : Onward s s') :
    Complained s' := by
  intro none
  have kept := onward.reported
  rw [none, List.suffix_nil] at kept
  exact complained kept

namespace Parser

theorem Advances.complained {p : Parser α} (advances : Advances p) :
    Triple Complained p (fun _ => Complained) Complained := by
  intro s complained
  have result := advances.onward s
  rcases run : p s with ⟨_ | a, s'⟩ <;> rw [run] at result <;> exact complained.onward result

theorem report_complains {P : State → Prop} {complaint : Complaint} {E : State → Prop} :
    Triple P (report complaint) (fun _ => Complained) E := by
  intro s _
  by_cases again : (s.reported.head?.any fun d =>
      d.isGrammatical && d.location == s.cursor.current.location) = true
  · have before : Complained s := by
      intro none
      rw [none] at again
      contradiction
    simpa only [report, again, if_true] using before
  · have now (d : Diagnostic) : Complained { s with reported := d :: s.reported } :=
      List.cons_ne_nil _ _
    simpa only [report, again, Bool.false_eq_true, if_false] using now _

theorem reportMissing_complains {P : State → Prop} {expected : Expected} {E : State → Prop} :
    Triple P (reportMissing expected) (fun _ => Complained) E :=
  .bind (Q := fun _ => P) (.look fun _ => id) fun _ => report_complains

theorem reportSurplus_complains {P : State → Prop} {expected : Expected} {E : State → Prop} :
    Triple P (reportSurplus expected) (fun _ => Complained) E :=
  .bind (Q := fun _ => P) (.look fun _ => id) fun _ => report_complains

theorem missing_complains {P : State → Prop} {expected : Expected} {Q : α → State → Prop} :
    Triple P (missing expected : Parser α) Q Complained :=
  .bind reportMissing_complains fun _ => .giveUp fun _ => id

theorem skipGroup_advances : Advances skipGroup := .move (Cursor.skipUntil_suffix _)

/-- A parenthesis that is not there is missed. -/
theorem closeParen_complains :
    Triple (fun s => s.cursor.current.isPunctuation .rightParen = false) closeParen
      (fun _ => Complained) Complained := by
  refine .bind (Q := fun found _ => found = false) (.accept (fun s unclosed found => ?_)
    fun _ _ _ => rfl) fun found => ?_
  · rw [unclosed] at found
    contradiction
  · cases found with
    | true => exact fun _ never => nomatch never
    | false =>
        refine .bind reportMissing_complains fun _ => Advances.complained ?_
        exact .bind skipGroup_advances fun _ => .bind .accept fun _ => .pure

theorem closeParen_advances : Advances closeParen := by
  refine Advances.accept.bind fun found => ?_
  cases found with
  | true => exact .pure
  | false =>
      refine .bind (.bind .look fun _ => .report) fun _ => ?_
      exact .bind skipGroup_advances fun _ => .bind .accept fun _ => .pure

theorem identifier_advances : Advances identifier := by
  apply Advances.look.bind
  intro t
  split
  · exact .bind (.move Cursor.advance_suffix) fun _ => .pure
  · exact .giveUp

theorem tooDeep_complains {ends : Token → Bool} :
    Triple (fun _ => True) (tooDeep ends : Parser α) (fun _ => Complained) Complained := by
  refine .bind report_complains fun _ => Advances.complained ?_
  exact .bind (.move (Cursor.skipUntil_suffix _)) fun _ => .giveUp

theorem tooDeep_advances {ends : Token → Bool} : Advances (tooDeep ends : Parser α) :=
  .bind .report fun _ => .bind (.move (Cursor.skipUntil_suffix _)) fun _ => .giveUp

/-! Giving up. -/

/-- Where the parser gives up something is wrong. -/
abbrev Explains (p : Parser α) : Prop :=
  Triple (fun _ => True) p (fun _ _ => True) Complained

namespace Explains

theorem ofTotal {p : Parser α} [Total p] : Explains p :=
  Total.triple (E := fun _ => True) (.of_run fun s _ => by
    obtain ⟨a, s', run⟩ := Total.result (p := p) s
    exact ⟨a, s', run, trivial⟩)

theorem missing {expected : Expected} : Explains (missing expected : Parser α) :=
  missing_complains

theorem requireKeyword {k : Keyword} : Explains (requireKeyword k) := by
  apply Triple.bind (Explains.ofTotal (p := acceptKeyword k))
  intro found
  cases found with
  | true => exact .pure fun _ => id
  | false => exact missing

theorem requirePunctuation {p : Punctuation} : Explains (requirePunctuation p) := by
  apply Triple.bind (Explains.ofTotal (p := acceptPunctuation p))
  intro found
  cases found with
  | true => exact .pure fun _ => id
  | false => exact missing

end Explains

/-! What is put together comes at least as far as what it begins with. -/

theorem bind_onward {p : Parser ι} {f : ι → Parser κ} (tail : ∀ i, Advances (f i)) (s : State) :
    Onward (p s).2 ((p >>= f) s).2 := by
  rw [bind_apply]
  rcases p s with ⟨_ | i, s'⟩
  · exact .refl s'
  · exact (tail i).onward s'

theorem iterate_onward {step : β → Parser (β × Bool)} (advances : ∀ b, Advances (step b)) (b : β)
    (s : State) : Onward (step b s).2 (iterate step b s).2 := by
  rcases run : step b s with ⟨_ | ⟨j, more⟩, s'⟩
  · rw [iterate_nothing run]
    exact .refl s'
  · by_cases goesOn : more = true ∧ s'.remaining < s.remaining
    · rw [iterate_goesOn run goesOn]
      exact (Advances.iterate advances j).onward s'
    · rw [iterate_ends run goesOn]
      exact .refl s'

theorem collect_onward {step : Parser (Option ι × Bool)} (advances : Advances step) (s : State) :
    Onward (step s).2 (collect step s).2 := by
  rcases run : step s with ⟨_ | ⟨i?, more⟩, s'⟩
  · rw [collect_nothing run]
    exact .refl s'
  · by_cases goesOn : more = true ∧ s'.remaining < s.remaining
    · rw [collect_goesOn run goesOn]
      exact (Advances.collect advances).onward s'
    · rw [collect_ends run goesOn]
      exact .refl s'

/-- What a chain does behind its first operand begins with the operator. -/
theorem chainRight_onward {operand : Parser α} {operator : Parser (Option ω)} {join : α → ω → α → α}
    (operands : Advances operand) (operators : Advances operator) {s s' : State} {a : α}
    (run : operand s = (some a, s')) :
    Onward (operator s').2 (chainRight operand operator join s).2 := by
  rcases between : operator s' with ⟨_ | _ | op, s''⟩
  · rw [chainRight_stop run between nofun]
    exact .refl s''
  · rw [chainRight_stop run between nofun]
    exact .refl s''
  · by_cases shorter : s''.remaining < s.remaining
    · rw [chainRight_more run between shorter]
      exact (Advances.chainRight operands operators).onward s''
    · rw [chainRight_still run between shorter]
      exact .refl s''

theorem operand_onward {operand : Parser α} {operator : Parser (Option ω)} {join : α → ω → α → α}
    (operands : Advances operand) (operators : Advances operator) (s : State) :
    Onward (operand s).2 (chainRight operand operator join s).2 := by
  rcases run : operand s with ⟨_ | a, s'⟩
  · rw [chainRight_nothing run]
    exact .refl s'
  · exact (operators.onward s').trans (chainRight_onward operands operators run)

end Parser

end QueryNames.Grammar
