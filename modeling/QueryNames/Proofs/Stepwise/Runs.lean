import QueryNames.Proofs.Grammar.Total
import QueryNames.Proofs.Stepwise.Rules

/-!
Runs inside of a run. Main statements: nothing is taken back behind such a run, and the rules for
statements about a parser that ask for something wherever it runs certain others.
-/

namespace QueryNames.Grammar

theorem lasting_onward (origin : State) : Lasting (Onward origin) where
  onward come onward := ⟨onward.trans come.tokens, come.reported⟩
  complained {s} complaint come := by
    unfold Parser.report
    dsimp only
    split
    · exact come
    · exact ⟨come.tokens, come.reported.trans (List.suffix_cons _ _)⟩

namespace Parser

theorem Stepwise.advances (p : Parser α) [Stepwise p] : Advances p := by
  intro origin s come
  rcases run : p s with ⟨_ | a, s'⟩
  · exact of_run (lasting_onward origin) come run
  · exact of_run (lasting_onward origin) come run

theorem Stepwise.suffix_of_run {p : Parser α} [Stepwise p] {a? : Option α} {s s' : State}
    (run : p s = (a?, s')) : s'.cursor.tokens <:+ s.cursor.tokens := by
  have come := (advances p).onward s
  rw [run] at come
  exact come.tokens

/-- In the run of `p` from a state, `q` is run from `t` on. The parsers around it only move on and
complain. -/
inductive Runs {β : Type} (q : Parser β) (t : State) : {α : Type} → Parser α → State → Prop where
  | here : Runs q t q t
  | first {α γ : Type} {p : Parser α} {f : α → Parser γ} [∀ a, Stepwise (f a)] {s : State} :
      Runs q t p s → Runs q t (p >>= f) s
  | next {α γ : Type} {p : Parser α} {f : α → Parser γ} {s s' : State} {a : α} :
      p s = (some a, s') → Runs q t (f a) s' → Runs q t (p >>= f) s
  | attempt {α : Type} {p : Parser α} {s : State} : Runs q t p s → Runs q t (attempt p) s
  | round {γ : Type} {step : γ → Parser (γ × Bool)} [∀ c, Stepwise (step c)] {c : γ} {s : State} :
      Runs q t (step c) s → Runs q t (iterate step c) s
  | rounds {γ : Type} {step : γ → Parser (γ × Bool)} {c c' : γ} {s s' : State} :
      step c s = (some (c', true), s') → s'.remaining < s.remaining →
      Runs q t (iterate step c') s' → Runs q t (iterate step c) s
  | item {α : Type} {step : Parser (Option α × Bool)} [Stepwise step] {s : State} :
      Runs q t step s → Runs q t (collect step) s
  | items {α : Type} {step : Parser (Option α × Bool)} {s s' : State} {a? : Option α} :
      step s = (some (a?, true), s') → s'.remaining < s.remaining →
      Runs q t (collect step) s' → Runs q t (collect step) s
  | operand {α ω : Type} {operand : Parser α} {operator : Parser (Option ω)}
      {join : α → ω → α → α} [Stepwise operand] [Stepwise operator] {s : State} :
      Runs q t operand s → Runs q t (chainRight operand operator join) s
  | operator {α ω : Type} {operand : Parser α} {operator : Parser (Option ω)}
      {join : α → ω → α → α} [Stepwise operand] [Stepwise operator] {s s' : State} {a : α} :
      operand s = (some a, s') → Runs q t operator s' →
      Runs q t (chainRight operand operator join) s
  | right {α ω : Type} {operand : Parser α} {operator : Parser (Option ω)}
      {join : α → ω → α → α} {s s' s'' : State} {a : α} {op : ω} :
      operand s = (some a, s') → operator s' = (some (some op), s'') →
      s''.remaining < s.remaining → Runs q t (chainRight operand operator join) s'' →
      Runs q t (chainRight operand operator join) s

/-- Nothing is taken back behind a run. -/
theorem Runs.onward {α β : Type} {q : Parser β} {t : State} {p : Parser α} {s : State}
    (runs : Runs q t p s) : Onward (q t).2 (p s).2 := by
  induction runs with
  | here => exact .refl _
  | first _ ih => exact ih.trans (bind_onward (fun _ => Stepwise.advances _) _)
  | next found _ ih =>
      rw [bind_apply, found]
      exact ih
  | attempt _ ih => exact ih
  | round _ ih => exact ih.trans (iterate_onward (fun _ => Stepwise.advances _) _ _)
  | rounds found fewer _ ih =>
      rw [iterate_more found fewer]
      exact ih
  | item _ ih => exact ih.trans (collect_onward (Stepwise.advances _) _)
  | items found fewer _ ih =>
      rw [collect_goesOn found ⟨rfl, fewer⟩]
      exact ih
  | operand _ ih =>
      exact ih.trans (operand_onward (Stepwise.advances _) (Stepwise.advances _) _)
  | operator found _ ih =>
      exact ih.trans (chainRight_onward (Stepwise.advances _) (Stepwise.advances _) found)
  | right found between fewer _ ih =>
      rw [chainRight_more found between fewer]
      exact ih

variable {ι κ : Type} {q : ι → Parser κ} {C : ι → State → Prop}

/-- Wherever `p` runs one of the parsers `q` from a state on, `C` holds of the place. -/
def Throughout (q : ι → Parser κ) (C : ι → State → Prop) (p : Parser α) (s : State) : Prop :=
  ∀ i t, t.cursor.tokens <:+ s.cursor.tokens → Runs (q i) t p s → C i t

namespace Throughout

variable {s s' : State}

theorem here {i : ι} (holds : Throughout q C (q i) s) : C i s := holds i s List.suffix_rfl .here

section

variable {p : Parser α} {f : α → Parser β}

theorem first [∀ a, Stepwise (f a)] (holds : Throughout q C (p >>= f) s) : Throughout q C p s :=
  fun i t ahead runs => holds i t ahead (.first runs)

theorem next [Stepwise p] {a : α} (holds : Throughout q C (p >>= f) s) (run : p s = (some a, s')) :
    Throughout q C (f a) s' :=
  fun i t ahead runs => holds i t (ahead.trans (Stepwise.suffix_of_run run)) (.next run runs)

theorem attempt (holds : Throughout q C (attempt p) s) : Throughout q C p s :=
  fun i t ahead runs => holds i t ahead (.attempt runs)

end

section

variable {step : β → Parser (β × Bool)} [∀ b, Stepwise (step b)] {b b' : β}

theorem round (holds : Throughout q C (iterate step b) s) : Throughout q C (step b) s :=
  fun i t ahead runs => holds i t ahead (.round runs)

theorem rounds (holds : Throughout q C (iterate step b) s) (run : step b s = (some (b', true), s'))
    (fewer : s'.remaining < s.remaining) : Throughout q C (iterate step b') s' :=
  fun i t ahead runs =>
    holds i t (ahead.trans (Stepwise.suffix_of_run run)) (.rounds run fewer runs)

end

section

variable {step : Parser (Option α × Bool)} [Stepwise step] {a? : Option α}

theorem item (holds : Throughout q C (collect step) s) : Throughout q C step s :=
  fun i t ahead runs => holds i t ahead (.item runs)

theorem items (holds : Throughout q C (collect step) s) (run : step s = (some (a?, true), s'))
    (fewer : s'.remaining < s.remaining) : Throughout q C (collect step) s' :=
  fun i t ahead runs => holds i t (ahead.trans (Stepwise.suffix_of_run run)) (.items run fewer runs)

end

section

variable {p : Parser α} {r : Parser (Option ω)} {join : α → ω → α → α} [Stepwise p] [Stepwise r]
  {a : α}

theorem operand (holds : Throughout q C (chainRight p r join) s) : Throughout q C p s :=
  fun i t ahead runs => holds i t ahead (.operand runs)

theorem operator (holds : Throughout q C (chainRight p r join) s) (run : p s = (some a, s')) :
    Throughout q C r s' :=
  fun i t ahead runs =>
    holds i t (ahead.trans (Stepwise.suffix_of_run run)) (.operator run runs)

theorem right {op : ω} {s'' : State} (holds : Throughout q C (chainRight p r join) s)
    (run : p s = (some a, s')) (between : r s' = (some (some op), s''))
    (fewer : s''.remaining < s.remaining) : Throughout q C (chainRight p r join) s'' := by
  intro i t ahead runs
  have passed := (Stepwise.suffix_of_run between).trans (Stepwise.suffix_of_run run)
  exact holds i t (ahead.trans passed) (.right run between fewer runs)

end

end Throughout

/-- The parser only moves on and complains, and from a state in `P` it ends in `Q` of its result, or
in `E` if it gives up, as long as `C` holds wherever it runs one of the parsers `q`. -/
structure GuardedTriple (q : ι → Parser κ) (C : ι → State → Prop) (P : State → Prop) (p : Parser α)
    (Q : α → State → Prop) (E : State → Prop) : Prop where
  stepwise : Stepwise p
  holds : Triple (fun s => P s ∧ Throughout q C p s) p Q E

namespace GuardedTriple

variable {P E : State → Prop} {Q : α → State → Prop}

/-- What holds anyhow. -/
theorem of {p : Parser α} [Stepwise p] (holds : Triple P p Q E) : GuardedTriple q C P p Q E where
  stepwise := inferInstance
  holds := holds.weaken (fun _ => And.left) (fun _ _ => id) (fun _ => id)

/-- Of one of the parsers `q` itself, what is asked for is known. -/
theorem of_guarded {i : ι} {Q : κ → State → Prop}
    (holds : GuardedTriple q C (fun s => P s ∧ C i s) (q i) Q E) :
    GuardedTriple q C P (q i) Q E where
  stepwise := holds.stepwise
  holds := holds.holds.weaken (fun _ start => ⟨⟨start.1, start.2.here⟩, start.2⟩) (fun _ _ => id)
    (fun _ => id)

/-- Where the result is known beforehand, the parser does not give up. -/
theorem of_known {p : Parser α} {K E' : State → Prop} {R : α → State → Prop}
    (holds : GuardedTriple q C P p Q E)
    (known : ∀ s, K s → ∃ a s', p s = (some a, s') ∧ R a s') :
    GuardedTriple q C (fun s => P s ∧ K s) p (fun a s => Q a s ∧ R a s) E' where
  stepwise := holds.stepwise
  holds := by
    rintro s ⟨⟨start, knows⟩, guarded⟩
    obtain ⟨a, s', run, result⟩ := known s knows
    rw [run]
    exact ⟨holds.holds.of_result ⟨start, guarded⟩ run, result⟩

theorem weaken {P' E' : State → Prop} {Q' : α → State → Prop} {p : Parser α}
    (holds : GuardedTriple q C P p Q E) (before : ∀ s, P' s → P s) (after : ∀ a s, Q a s → Q' a s)
    (fall : ∀ s, E s → E' s) : GuardedTriple q C P' p Q' E' where
  stepwise := holds.stepwise
  holds := holds.holds.weaken (fun s start => ⟨before s start.1, start.2⟩) after fall

theorem or {P' : State → Prop} {Q' : α → State → Prop} {p : Parser α}
    (left : GuardedTriple q C P p Q E) (right : GuardedTriple q C P' p Q' E) :
    GuardedTriple q C (fun s => P s ∨ P' s) p (fun a s => Q a s ∨ Q' a s) E where
  stepwise := left.stepwise
  holds := (left.holds.or right.holds).weaken
    (fun _ start => start.1.imp (fun first => ⟨first, start.2⟩) fun second => ⟨second, start.2⟩)
    (fun _ _ => id) (fun _ => id)

theorem ofTotal {p : Parser α} [Total p] {E' : State → Prop} (holds : GuardedTriple q C P p Q E) :
    GuardedTriple q C P p Q E' := ⟨holds.stepwise, Total.triple holds.holds⟩

theorem pure {a : α} (holds : ∀ s, P s → Q a s) : GuardedTriple q C P (pure a : Parser α) Q E :=
  .of (.pure holds)

theorem giveUp (holds : ∀ s, P s → E s) : GuardedTriple q C P (giveUp : Parser α) Q E :=
  .of (.giveUp holds)

theorem look {f : Cursor → α} (holds : ∀ s, P s → Q (f s.cursor) s) :
    GuardedTriple q C P (look f) Q E := .of (.look holds)

theorem accept {r : Token → Bool} {Q : Bool → State → Prop}
    (yes : ∀ s, P s → r s.cursor.current = true →
      Q true { s with cursor := s.cursor.advance })
    (no : ∀ s, P s → r s.cursor.current = false → Q false s) :
    GuardedTriple q C P (accept r) Q E := .of (.accept yes no)

theorem report {complaint : Complaint} {Q : Unit → State → Prop}
    (holds : ∀ s reported, P s → s.reported <:+ reported →
      Q () { s with reported := reported }) :
    GuardedTriple q C P (report complaint) Q E := .of (.report holds)

theorem bind {p : Parser α} {f : α → Parser β} {R : β → State → Prop}
    (first : GuardedTriple q C P p Q E) (rest : ∀ a, GuardedTriple q C (Q a) (f a) R E) :
    GuardedTriple q C P (p >>= f) R E := by
  have stepwise := first.stepwise
  have further (a : α) := (rest a).stepwise
  refine ⟨.bind p f, ?_⟩
  rintro s ⟨start, guarded⟩
  rw [bind_apply]
  rcases run : p s with ⟨_ | a, s'⟩
  · exact first.holds.of_none ⟨start, guarded.first⟩ run
  · exact (rest a).holds s' ⟨first.holds.of_result ⟨start, guarded.first⟩ run, guarded.next run⟩

theorem attempt {p : Parser α} {Q : Option α → State → Prop}
    (holds : GuardedTriple q C P p (fun a => Q (some a)) (Q none)) :
    GuardedTriple q C P (attempt p) Q E := by
  have stepwise := holds.stepwise
  refine ⟨inferInstance, .weaken (.attempt holds.holds) ?_ (fun _ _ => id) (fun _ => id)⟩
  exact fun s start => ⟨start.1, start.2.attempt⟩

theorem onlyIf {condition : Bool} {p : Parser α} {Q : Option α → State → Prop}
    (yes : condition = true → GuardedTriple q C P p (fun a => Q (some a)) (Q none))
    (no : condition = false → ∀ s, P s → Q none s) :
    GuardedTriple q C P (onlyIf condition p) Q E := by
  cases condition with
  | false => exact pure (no rfl)
  | true => exact (yes rfl).attempt

/-! Repetition. -/

theorem iterate {step : β → Parser (β × Bool)} {I : β → State → Prop}
    (round : ∀ b, GuardedTriple q C (I b) (step b) (fun r => I r.1) E) (b : β) :
    GuardedTriple q C (I b) (iterate step b) I E := by
  have stepwise (b : β) := (round b).stepwise
  refine ⟨inferInstance, ?_⟩
  rintro s ⟨start, guarded⟩
  fun_induction Parser.iterate step b s with
  | case1 b s s' run => exact (round b).holds.of_none ⟨start, guarded.round⟩ run
  | case2 b s b' more s' run goesOn ih =>
      obtain ⟨rfl, fewer⟩ := goesOn
      exact ih ((round b).holds.of_result ⟨start, guarded.round⟩ run) (guarded.rounds run fewer)
  | case3 b s b' more s' run _ => exact (round b).holds.of_result ⟨start, guarded.round⟩ run

/-- Where every further round is one that moves on, the last round decides. -/
theorem collectLast {step : Parser (Option α × Bool)} [Stepwise step] {I Q : State → Prop}
    (round : ∀ origin, I origin → GuardedTriple q C (· = origin) step
      (fun r s => if r.2 = true then I s ∧ s.remaining < origin.remaining else Q s) E) :
    GuardedTriple q C I (Parser.collect step) (fun _ => Q) E := by
  refine ⟨inferInstance, ?_⟩
  rintro s ⟨start, guarded⟩
  fun_induction Parser.collect step s with
  | case1 s s' run => exact (round s start).holds.of_none ⟨rfl, guarded.item⟩ run
  | case2 s a? more s' run goesOn s'' last ih
  | case3 s a? more s' run goesOn as s'' last ih =>
      obtain ⟨rfl, fewer⟩ := goesOn
      have result := (round s start).holds.of_result ⟨rfl, guarded.item⟩ run
      have ends := ih result.1 (guarded.items run fewer)
      rwa [last] at ends
  | case4 s a? more s' run stops =>
      have result := (round s start).holds.of_result ⟨rfl, guarded.item⟩ run
      cases more with
      | false => simpa using result
      | true =>
          simp only [if_true] at result
          exact absurd ⟨rfl, result.2⟩ stops

/-- What every round keeps. -/
theorem collect {step : Parser (Option α × Bool)} {I : State → Prop}
    (round : GuardedTriple q C I step (fun _ => I) E) :
    GuardedTriple q C I (Parser.collect step) (fun _ => I) E := by
  have stepwise := round.stepwise
  refine ⟨inferInstance, ?_⟩
  rintro s ⟨start, guarded⟩
  fun_induction Parser.collect step s with
  | case1 s s' run => exact round.holds.of_none ⟨start, guarded.item⟩ run
  | case2 s a? more s' run goesOn s'' last ih
  | case3 s a? more s' run goesOn as s'' last ih =>
      obtain ⟨rfl, fewer⟩ := goesOn
      have ends := ih (round.holds.of_result ⟨start, guarded.item⟩ run) (guarded.items run fewer)
      rwa [last] at ends
  | case4 s a? more s' run _ => exact round.holds.of_result ⟨start, guarded.item⟩ run

theorem chainRight {operand : Parser α} {operator : Parser (Option ω)} {join : α → ω → α → α}
    {I : State → Prop} (operands : GuardedTriple q C I operand (fun _ => I) I)
    (operators : GuardedTriple q C I operator (fun _ => I) I) :
    GuardedTriple q C I (chainRight operand operator join) (fun _ => I) I := by
  have first := operands.stepwise
  have second := operators.stepwise
  refine ⟨inferInstance, ?_⟩
  rintro s ⟨start, guarded⟩
  fun_induction Parser.chainRight operand operator join s with
  | case1 s s' run => exact operands.holds.of_none ⟨start, guarded.operand⟩ run
  | case2 s a s' run op s'' between fewer b s''' last ih
  | case3 s a s' run op s'' between fewer s''' last ih =>
      have left := operands.holds.of_result ⟨start, guarded.operand⟩ run
      have behind := operators.holds.of_result ⟨left, guarded.operator run⟩ between
      have result := ih behind (guarded.right run between fewer)
      rwa [last] at result
  | case4 s a s' run op s'' between _ =>
      have left := operands.holds.of_result ⟨start, guarded.operand⟩ run
      exact operators.holds.of_result ⟨left, guarded.operator run⟩ between
  | case5 s a s' run op? s'' _ between =>
      have left := operands.holds.of_result ⟨start, guarded.operand⟩ run
      cases op? with
      | none => exact operators.holds.of_none ⟨left, guarded.operator run⟩ between
      | some op => exact operators.holds.of_result ⟨left, guarded.operator run⟩ between

end GuardedTriple

end Parser

end QueryNames.Grammar
