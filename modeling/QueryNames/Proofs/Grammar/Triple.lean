import QueryNames.Grammar.Recovery

/-!
Statements about the runs of a parser: what holds before, what after a result, and what after it
gave up. There is a rule for each way in which parsers are put together; the rules for repetition
ask for what one round keeps and give what all of them keep.
-/

namespace QueryNames.Grammar.Parser

/-- From a state in `P` the parser ends in `Q` of its result, or in `E` if it gives up. -/
def Triple (P : State → Prop) (p : Parser α) (Q : α → State → Prop) (E : State → Prop) : Prop :=
  ∀ s, P s →
    match p s with
    | (some a, s') => Q a s'
    | (none, s') => E s'

/-- A round of a chain that is joined from the left: one more operator and its right side. -/
def chainRound (operand : Parser α) (operator : Parser (Option ω)) (join : ω → α → α → α)
    (left : α) : Parser (α × Bool) := do
  match ← operator with
  | none => return (left, false)
  | some op =>
      match ← attempt operand with
      | none => return (left, false)
      | some right => return (join op left right, true)

theorem chainLeft_eq (operand : Parser α) (operator : Parser (Option ω)) (join : ω → α → α → α) :
    chainLeft operand operator join =
      operand >>= iterate (chainRound operand operator join) := rfl

namespace Triple

variable {P E : State → Prop} {Q : α → State → Prop}

theorem of_result {p : Parser α} (holds : Triple P p Q E) {s s' : State} {a : α}
    (before : P s) (run : p s = (some a, s')) : Q a s' := by
  have result := holds s before
  rwa [run] at result

theorem of_none {p : Parser α} (holds : Triple P p Q E) {s s' : State}
    (before : P s) (run : p s = (none, s')) : E s' := by
  have result := holds s before
  rwa [run] at result

/-- Where result and failure end in the same, so does every run. -/
theorem ends {p : Parser α} (holds : Triple P p (fun _ => E) E) {s : State} (before : P s) :
    E (p s).2 := by
  have result := holds s before
  rcases run : p s with ⟨_ | a, s'⟩ <;> rw [run] at result <;> exact result

theorem weaken {P' E' : State → Prop} {Q' : α → State → Prop} {p : Parser α}
    (holds : Triple P p Q E)
    (before : ∀ s, P' s → P s)
    (after : ∀ a s, Q a s → Q' a s)
    (fall : ∀ s, E s → E' s) :
    Triple P' p Q' E' := by
  intro s start
  have result := holds s (before s start)
  rcases run : p s with ⟨_ | a, s'⟩
  · rw [run] at result
    exact fall s' result
  · rw [run] at result
    exact after a s' result

theorem of_run {p : Parser α} (runs : ∀ s, P s → ∃ a s', p s = (some a, s') ∧ Q a s') :
    Triple P p Q E := by
  intro s start
  obtain ⟨a, s', run, result⟩ := runs s start
  rw [run]
  exact result

theorem or {P' : State → Prop} {Q' : α → State → Prop} {p : Parser α} (left : Triple P p Q E)
    (right : Triple P' p Q' E) :
    Triple (fun s => P s ∨ P' s) p (fun a s => Q a s ∨ Q' a s) E := by
  intro s start
  rcases start with start | start
  · exact left.weaken (fun _ => id) (fun _ _ => .inl) (fun _ => id) s start
  · exact right.weaken (fun _ => id) (fun _ _ => .inr) (fun _ => id) s start

theorem pure {a : α} (holds : ∀ s, P s → Q a s) : Triple P (pure a : Parser α) Q E := holds

theorem giveUp (holds : ∀ s, P s → E s) : Triple P (giveUp : Parser α) Q E := holds

theorem bind {p : Parser α} {f : α → Parser β} {R : β → State → Prop}
    (first : Triple P p Q E) (rest : ∀ a, Triple (Q a) (f a) R E) :
    Triple P (p >>= f) R E := by
  intro s start
  rw [bind_apply]
  rcases run : p s with ⟨_ | a, s'⟩
  · exact first.of_none start run
  · exact rest a s' (first.of_result start run)

theorem attempt {p : Parser α} {Q : Option α → State → Prop}
    (holds : Triple P p (fun a => Q (some a)) (Q none)) :
    Triple P (attempt p) Q E := by
  intro s start
  have result := holds s start
  rcases run : p s with ⟨_ | a, s'⟩ <;> rw [run] at result <;>
    simpa [Parser.attempt, run] using result

theorem onlyIf {condition : Bool} {p : Parser α} {Q : Option α → State → Prop}
    (yes : condition = true → Triple P p (fun a => Q (some a)) (Q none))
    (no : condition = false → ∀ s, P s → Q none s) :
    Triple P (onlyIf condition p) Q E := by
  cases condition with
  | false => exact no rfl
  | true => exact (yes rfl).attempt

theorem look {f : Cursor → α} (holds : ∀ s, P s → Q (f s.cursor) s) :
    Triple P (look f) Q E := holds

theorem move {f : Cursor → Cursor} {Q : Unit → State → Prop}
    (holds : ∀ s, P s → Q () { s with cursor := f s.cursor }) :
    Triple P (move f) Q E := holds

theorem accept {q : Token → Bool} {Q : Bool → State → Prop}
    (yes : ∀ s, P s → q s.cursor.current = true →
      Q true { s with cursor := s.cursor.advance })
    (no : ∀ s, P s → q s.cursor.current = false → Q false s) :
    Triple P (accept q) Q E := by
  intro s start
  cases found : q s.cursor.current with
  | false => simpa [Parser.accept, found] using no s start found
  | true => simpa [Parser.accept, found] using yes s start found

/-- A complaint does not move the cursor. -/
theorem report {complaint : Complaint} {Q : Unit → State → Prop}
    (holds : ∀ s reported, P s → s.reported <:+ reported →
      Q () { s with reported := reported }) :
    Triple P (report complaint) Q E := by
  intro s start
  by_cases again : (s.reported.head?.any fun d =>
      d.isGrammatical && d.location == s.cursor.current.location) = true
  · simpa only [Parser.report, again, if_true] using
      holds s s.reported start List.suffix_rfl
  · simpa only [Parser.report, again, Bool.false_eq_true, if_false] using
      holds s _ start (List.suffix_cons _ _)

/-! Repetition. -/

theorem iterate {step : β → Parser (β × Bool)} {I : β → State → Prop}
    (round : ∀ b, Triple (I b) (step b) (fun r => I r.1) E) (b : β) :
    Triple (I b) (iterate step b) I E := by
  intro s start
  fun_induction Parser.iterate step b s with
  | case1 b s s' run => exact (round b).of_none start run
  | case2 b s b' more s' run _ ih => exact ih ((round b).of_result start run)
  | case3 b s b' more s' run _ => exact (round b).of_result start run

/-- What the first round brings about and all others keep. -/
theorem iterateFrom {step : β → Parser (β × Bool)} {I : β → State → Prop} {b : β}
    (first : Triple P (step b) (fun r => I r.1) E)
    (round : ∀ b, Triple (I b) (step b) (fun r => I r.1) E) :
    Triple P (Parser.iterate step b) I E := by
  intro s start
  rw [Parser.iterate]
  rcases run : step b s with ⟨_ | ⟨b', more⟩, s'⟩
  · exact first.of_none start run
  · have behind := first.of_result start run
    by_cases goesOn : more = true ∧ s'.remaining < s.remaining
    · simpa only [goesOn, and_self, if_true] using iterate round b' s' behind
    · simpa only [goesOn, if_false] using behind

/-- What holds of the results so far has to hold of them with those of one more round. -/
theorem collect {step : Parser (Option α × Bool)} {I : List α → State → Prop}
    (round : ∀ as, Triple (I as) step (fun r => I (as ++ r.1.toList)) E) (as : List α) :
    Triple (I as) (collect step) (fun bs => I (as ++ bs)) E := by
  intro s start
  fun_induction Parser.collect step s generalizing as with
  | case1 s s' run => exact (round as).of_none start run
  | case2 s a? more s' run _ s'' last ih =>
    have result := ih (as ++ a?.toList) ((round as).of_result start run)
    rwa [last] at result
  | case3 s a? more s' run _ rest s'' last ih =>
    have result := ih (as ++ a?.toList) ((round as).of_result start run)
    rw [last] at result
    simpa using result
  | case4 s a? more s' run _ => exact (round as).of_result start run

/-- Where every further round is one that moves on, the last round decides. -/
theorem collectLast {step : Parser (Option α × Bool)} {I Q : State → Prop}
    (round : ∀ origin, I origin → Triple (· = origin) step
      (fun r s => if r.2 = true then I s ∧ s.remaining < origin.remaining else Q s) E) :
    Triple I (Parser.collect step) (fun _ => Q) E := by
  intro s start
  fun_induction Parser.collect step s with
  | case1 s s' run => exact (round s start).of_none rfl run
  | case2 s a? more s' run goesOn s'' last ih =>
    have result := (round s start).of_result rfl run
    rw [if_pos goesOn.1] at result
    have ends := ih result.1
    rwa [last] at ends
  | case3 s a? more s' run goesOn as s'' last ih =>
    have result := (round s start).of_result rfl run
    rw [if_pos goesOn.1] at result
    have ends := ih result.1
    rwa [last] at ends
  | case4 s a? more s' run stops =>
    have result := (round s start).of_result rfl run
    cases more with
    | false => simpa using result
    | true =>
        simp only [if_true] at result
        exact absurd ⟨rfl, result.2⟩ stops

/-! Chains. What holds at `i` before an operand `a` holds at `f i a` behind it. -/

variable {ι : Type} {operand : Parser α} {operator : Parser (Option ω)}
  {I : ι → State → Prop} {f : ι → α → ι}

theorem chainRight {join : α → ω → α → α}
    (operands : ∀ i, Triple (I i) operand (fun a => I (f i a)) (I i))
    (operators : ∀ i, Triple (I i) operator (fun _ => I i) (I i))
    (joins : ∀ i a op b s, I (f (f i a) b) s → I (f i (join a op b)) s)
    (i : ι) :
    Triple (I i) (chainRight operand operator join) (fun a => I (f i a)) (I i) := by
  intro s start
  fun_induction Parser.chainRight operand operator join s generalizing i with
  | case1 s s' run => exact (operands i).of_none start run
  | case2 s a s' run op s'' between _ b s''' last ih =>
    have left := (operands i).of_result start run
    have result := ih (f i a) ((operators _).of_result left between)
    rw [last] at result
    exact joins i a op b s''' result
  | case3 s a s' run op s'' between _ s''' last ih =>
    have left := (operands i).of_result start run
    have result := ih (f i a) ((operators _).of_result left between)
    rwa [last] at result
  | case4 s a s' run op s'' between _ =>
    exact (operators _).of_result ((operands i).of_result start run) between
  | case5 s a s' run op? s'' _ between =>
    have left := (operands i).of_result start run
    cases op? with
    | none => exact (operators _).of_none left between
    | some op => exact (operators _).of_result left between

theorem chainLeft {join : ω → α → α → α}
    (operands : ∀ i, Triple (I i) operand (fun a => I (f i a)) (I i))
    (operators : ∀ i, Triple (I i) operator (fun _ => I i) (I i))
    (joins : ∀ i op a b s, I (f (f i a) b) s → I (f i (join op a b)) s)
    (forgets : ∀ i a s, I (f i a) s → I i s)
    (i : ι) :
    Triple (I i) (chainLeft operand operator join) (fun a => I (f i a)) (I i) := by
  refine (operands i).bind fun first =>
    iterate (I := fun left => I (f i left)) (fun left => ?_) first
  refine bind (Q := fun _ => I (f i left))
    ((operators (f i left)).weaken (fun _ => id) (fun _ _ => id) (forgets i left)) fun op? => ?_
  cases op? with
  | none => exact pure fun _ => id
  | some op =>
      refine bind (Q := fun right? => I (right?.elim (f i left)
        (fun right => f i (join op left right)))) ?_ fun right? => ?_
      · exact ((operands (f i left)).weaken (fun _ => id)
          (fun right => joins i op left right) (fun _ => id)).attempt
      · cases right? with
        | none => exact pure fun _ => id
        | some right => exact pure fun _ => id

end Triple

end QueryNames.Grammar.Parser
