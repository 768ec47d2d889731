import QueryNames.Proofs.Blame.Rules
import QueryNames.Proofs.Groups.Open
import QueryNames.Proofs.Parallel.Alone
import QueryNames.Proofs.Written.Name

/-!
Parsers that take tokens. Main statements: a round of a loop that asks for another has taken one,
whatever stands ahead; so a loop ends where a round asks for no other, as it would without a look at
what is left.
-/

namespace QueryNames.Grammar

namespace Parser

/-- From `s` the parser does not come to a result in `P` without taking a token. -/
def Takes (p : Parser α) (s : State) (P : α → Prop) : Prop :=
  Closed s.cursor.tokens → ∀ {a s'}, p s = (some a, s') → P a → s'.remaining < s.remaining

/-- A round that asks for another has taken a token. -/
def Spends (round : Parser (β × Bool)) : Prop := ∀ s, Takes round s (·.2 = true)

section Rules

variable {p : Parser α} {f : α → Parser β} {s s' : State} {P : α → Prop} {Q : β → Prop}

theorem onward_of_run [Stepwise p] {a? : Option α} (run : p s = (a?, s')) : Onward s s' := by
  have come := (Stepwise.advances p).onward s
  rwa [run] at come

theorem closed_of_onward (closed : Closed s.cursor.tokens) (come : Onward s s') :
    Closed s'.cursor.tokens := closed.of_suffix come.tokens (by simp)

theorem cursor_report (complaint : Complaint) (s : State) :
    (report complaint s).2.cursor = s.cursor := by
  unfold report
  dsimp only
  split <;> rfl

/-- What was complained of before says nothing of where a run comes to. -/
theorem cursor_run [Stepwise p] {t : State} (same : s.cursor = t.cursor) :
    (p s).2.cursor = (p t).2.cursor := by
  have coupling : Coupling fun s t => s.cursor = t.cursor :=
    { cursor := id
      onward := fun _ _ => rfl
      complained := fun complaint same => by rw [cursor_report, cursor_report, same] }
  exact (Stepwise.couples (p := p) coupling same).2

theorem fewer_behind_advance (closed : Closed s.cursor.tokens) (inside : s.cursor.isAtEnd = false) :
    s.cursor.advance.remaining < s.remaining := by
  have length := congrArg List.length (Cursor.tokens_advance closed inside)
  simp only [Cursor.tokens, List.length_cons] at length
  simp only [State.remaining, Cursor.remaining]
  omega

namespace Takes

/-- There is no such result. -/
theorem absent (never : ∀ a s', p s = (some a, s') → ¬P a) : Takes p s P :=
  fun _ _ _ run holds => absurd holds (never _ _ run)

theorem pure {a : α} (never : ¬P a) : Takes (pure a) s P := by
  refine absent fun b s' run => ?_
  obtain rfl : a = b := Option.some.inj (Prod.mk.inj run).1
  exact never

/-- With what comes first a token is taken, or else with what follows. -/
theorem bind [Stepwise p] [∀ a, Stepwise (f a)] (first : Takes p s P)
    (rest : ∀ a s', p s = (some a, s') → P a ∨ Takes (f a) s' Q) : Takes (p >>= f) s Q := by
  intro closed b s'' run holds
  rw [bind_apply] at run
  rcases found : p s with ⟨_ | a, s'⟩ <;> rw [found] at run <;> dsimp only at run
  · cases run
  · have come : Onward s s' := onward_of_run found
    rcases rest a s' found with took | takes
    · exact Nat.lt_of_le_of_lt (onward_of_run run).remaining_le (first closed found took)
    · exact Nat.lt_of_lt_of_le (takes (closed_of_onward closed come) run holds) come.remaining_le

/-- What always takes a token does so whatever follows. -/
theorem followed [Stepwise p] [∀ a, Stepwise (f a)] (first : Takes p s fun _ => True) :
    Takes (p >>= f) s Q := first.bind fun _ _ _ => .inl trivial

theorem behind [Stepwise p] [∀ a, Stepwise (f a)] (rest : ∀ a s', Takes (f a) s' Q) :
    Takes (p >>= f) s Q :=
  bind (P := fun _ => False) (absent fun _ _ _ => id) fun a s' _ => .inr (rest a s')

theorem look {g : Cursor → α} (rest : Takes (f (g s.cursor)) s Q) :
    Takes (Parser.look g >>= f) s Q := rest

/-- Where nothing is accepted, what follows has to take a token. -/
theorem orFalse {p : Parser Bool} {f : Bool → Parser β} [Stepwise p] [∀ b, Stepwise (f b)]
    (first : Takes p s (· = true)) (rest : ∀ s', p s = (some false, s') → Takes (f false) s' Q) :
    Takes (p >>= f) s Q := by
  refine first.bind fun found s' run => ?_
  cases found with
  | true => exact .inl rfl
  | false => exact .inr (rest s' run)

/-- Where nothing is found, what follows has to take a token. -/
theorem orNone {p : Parser (Option α)} {f : Option α → Parser β} [Stepwise p] [Stepwise (f none)]
    [∀ a, Stepwise (f (some a))] (first : Takes p s (·.isSome = true))
    (rest : ∀ s', Takes (f none) s' Q) : Takes (p >>= f) s Q := by
  have each (a? : Option α) : Stepwise (f a?) := by cases a? <;> infer_instance
  refine first.bind fun found s' run => ?_
  cases found with
  | some a => exact .inl rfl
  | none => exact .inr (rest s')

theorem attempt (takes : Takes p s fun _ => True) :
    Takes (Parser.attempt p) s (·.isSome = true) := by
  intro closed found s' run isThere
  obtain ⟨a, rfl⟩ := Option.isSome_iff_exists.1 isThere
  obtain ⟨result, rfl⟩ := Prod.mk.inj run
  exact takes closed (Prod.ext (Option.some.inj result) rfl) trivial

theorem missing {expected : Expected} : Takes (missing expected) s P :=
  behind fun _ _ => absent fun _ _ run => by cases run

theorem advance (inside : s.cursor.isAtEnd = false) : Takes advance s fun _ => True := by
  intro closed u s' run _
  obtain ⟨-, rfl⟩ := Prod.mk.inj run
  exact fewer_behind_advance closed inside

/-- What only another token than the end of the input can be is stepped over. -/
theorem accept {q : Token → Bool} (rejects : ∀ t : Token, t.isEnd = true → q t = false) :
    Takes (accept q) s (· = true) := by
  intro closed found s' run isThere
  cases there : q s.cursor.current with
  | false =>
      rw [accept_absent there] at run
      obtain rfl : false = found := Option.some.inj (Prod.mk.inj run).1
      contradiction
  | true =>
      rw [accept_present there] at run
      obtain ⟨-, rfl⟩ := Prod.mk.inj run
      refine fewer_behind_advance closed (Bool.eq_false_iff.2 fun ends => ?_)
      rw [rejects _ ends] at there
      contradiction

theorem acceptKeyword {k : Keyword} : Takes (acceptKeyword k) s (· = true) :=
  accept fun _ ends => Token.isKeyword_eq_false (Token.isEnd_iff.1 ends) (by simp)

theorem acceptPunctuation {c : Punctuation} : Takes (acceptPunctuation c) s (· = true) :=
  accept fun t ends => Bool.eq_false_iff.2 fun is => by
    rw [Token.isEnd_iff, Token.isPunctuation_iff.1 is] at ends
    cases ends

theorem identifier : Takes identifier s fun _ => True := by
  intro closed name s' run _
  rw [identifier_apply] at run
  split at run
  · rename_i isName
    obtain ⟨-, rfl⟩ := Prod.mk.inj run
    exact fewer_behind_advance closed (Cursor.isAtEnd_eq_false isName (by decide))
  · cases run

theorem requireIdentifier {expected : Expected} :
    Takes (requireIdentifier expected) s fun _ => True :=
  identifier.attempt.orNone fun _ => missing

theorem operator? {table : TokenKind → Option ω} (rejects : table .endOfInput = none) :
    Takes (operator? table) s (·.isSome = true) := by
  refine look ?_
  cases known : table s.cursor.current.kind with
  | none => exact pure Bool.false_ne_true
  | some op =>
      refine followed (advance (Cursor.isAtEnd_eq_false rfl fun ends => ?_))
      rw [ends, rejects] at known
      cases known

end Takes

end Rules

/-- Nothing is passed over by a parser that does not accept. -/
theorem eq_of_accept {q : Token → Bool} {s s' : State} (run : accept q s = (some false, s')) :
    s = s' := by
  cases there : q s.cursor.current with
  | false => exact (Prod.mk.inj ((accept_absent there).symm.trans run)).2
  | true =>
      rw [accept_present there] at run
      cases run

/-! A loop whose rounds spend tokens ends where one asks for no other, and nowhere else: it is the
one that does not look at what is left. -/

section Loops

variable {s : State} (closed : Closed s.cursor.tokens)

include closed

theorem iterate_eq {round : β → Parser (β × Bool)} {b : β} (spends : Spends (round b)) :
    iterate round b s = (do
      let (b', more) ← round b
      if more then iterate round b' else return b') s := by
  rcases run : round b s with ⟨_ | ⟨b', _ | _⟩, s'⟩
  · rw [bind_apply, run]
    exact iterate_nothing run
  · rw [bind_some run]
    exact iterate_stop run
  · rw [bind_some run]
    exact iterate_more run (spends s closed run rfl)

theorem collect_eq {round : Parser (Option α × Bool)} (spends : Spends round) :
    collect round s = (do
      let (a?, more) ← round
      if more then return a?.toList ++ (← collect round) else return a?.toList) s := by
  rcases run : round s with ⟨_ | ⟨a?, _ | _⟩, s'⟩
  · rw [bind_apply, run]
    exact collect_nothing run
  · rw [bind_some run]
    exact collect_stop run
  · rw [bind_some run, collect_goesOn run ⟨rfl, spends s closed run rfl⟩]
    dsimp only
    rw [if_pos rfl, bind_apply]
    rcases collect round s' with ⟨_ | as, s''⟩ <;> rfl

end Loops

/-! Lists, skips and chains. -/

/-- A round of a list: an item, and what is left of it. -/
def listRound (ends : Token → Bool) (item : Parser α) : Parser (Option α × Bool) := do
  let item? ← attempt item
  let more ← finishItem ends item?.isSome
  return (item?, more)

theorem commaList_eq (ends : Token → Bool) (item : Parser α) :
    commaList ends item = collect (listRound ends item) := rfl

instance (ends : Token → Bool) (item : Parser α) [Stepwise item] :
    Stepwise (listRound ends item) := by
  unfold listRound
  infer_instance

theorem finishItem_takes {ends : Token → Bool} {parsed : Bool} {s : State} :
    Takes (finishItem ends parsed) s (· = true) :=
  .behind fun _ _ => .behind fun _ _ => .behind fun _ _ => .acceptPunctuation

theorem listRound_spends {ends : Token → Bool} {item : Parser α} [Stepwise item] :
    Spends (listRound ends item) :=
  fun _ => .behind fun _ _ => finishItem_takes.orFalse fun _ _ => .pure Bool.false_ne_true

/-- How many parentheses are open behind `t`, unless a skip stops there. -/
def depthBehind? (stop : Token → Bool) (depth : Nat) (t : Token) : Option Nat :=
  if t.isEnd || depth == 0 && !t.isParen && stop t then none else openedBy depth t

/-- One step of a skip, from inside of `depth` parentheses. -/
def skipRound (stop : Token → Bool) (depth : Nat) : Parser (Nat × Bool) := do
  match depthBehind? stop depth (← current) with
  | none => return (depth, false)
  | some behind =>
      advance
      return (behind, true)

instance (stop : Token → Bool) (depth : Nat) : Stepwise (skipRound stop depth) := by
  apply Stepwise.next
  intro t
  cases depthBehind? stop depth t <;> infer_instance

theorem skipRound_spends {stop : Token → Bool} {depth : Nat} : Spends (skipRound stop depth) := by
  refine fun s => .look ?_
  cases behind : depthBehind? stop depth s.cursor.current with
  | none => exact .pure Bool.false_ne_true
  | some left =>
      refine .followed (.advance (Bool.eq_false_iff.2 fun ends => ?_))
      rw [depthBehind?, show s.cursor.current.isEnd = true from ends] at behind
      cases behind

theorem skipFrom_cons (stop : Token → Bool) (depth : Nat) (t next : Token) (ahead : List Token) :
    Cursor.skipFrom stop depth t (next :: ahead) =
      match depthBehind? stop depth t with
      | none => ⟨t, next :: ahead⟩
      | some behind => Cursor.skipFrom stop behind next ahead := by
  rw [Cursor.skipFrom.eq_def, depthBehind?, openedBy.eq_def, Token.isParen]
  cases ends : t.isEnd
  · cases opens : t.isPunctuation .leftParen
    · cases closes : t.isPunctuation .rightParen
      · cases stops : depth == 0 && stop t <;> simp [stops]
      · cases depth <;> simp
    · simp
  · simp

/-- A skip is made of these steps. -/
theorem iterate_skipRound (stop : Token → Bool) (depth : Nat) (t : Token) (ahead : List Token)
    (reported : List Diagnostic) : ∃ left, iterate (skipRound stop) depth ⟨⟨t, ahead⟩, reported⟩ =
      (some left, ⟨Cursor.skipFrom stop depth t ahead, reported⟩) := by
  have step (ahead : List Token) (depth : Nat) (t : Token) :
      skipRound stop depth ⟨⟨t, ahead⟩, reported⟩ =
        match depthBehind? stop depth t with
        | none => (some (depth, false), ⟨⟨t, ahead⟩, reported⟩)
        | some behind => (some (behind, true), ⟨Cursor.advance ⟨t, ahead⟩, reported⟩) := by
    rw [skipRound, current, bind_some (looks _ _)]
    cases depthBehind? stop depth t <;> rfl
  induction ahead generalizing depth t with
  | nil =>
      -- the last token is not stepped over, whatever it is, and the loop stops at that
      have stays : Cursor.advance ⟨t, []⟩ = ⟨t, []⟩ := by simp [Cursor.advance]
      have run := step [] depth t
      cases behind : depthBehind? stop depth t <;> rw [behind] at run
      · exact ⟨depth, iterate_stop run⟩
      · rw [stays] at run
        exact ⟨_, iterate_ends run fun goesOn => Nat.lt_irrefl _ goesOn.2⟩
  | cons next ahead ih =>
      rw [skipFrom_cons]
      have run := step (next :: ahead) depth t
      cases behind : depthBehind? stop depth t with
      | none =>
          rw [behind] at run
          exact ⟨depth, iterate_stop run⟩
      | some left =>
          rw [behind] at run
          have goesOn : t.isEnd = false := Bool.eq_false_iff.2 fun ends => by
            simp [depthBehind?, ends] at behind
          have moves : Cursor.advance ⟨t, next :: ahead⟩ = ⟨next, ahead⟩ := by
            simp [Cursor.advance, Cursor.isAtEnd, goesOn]
          rw [moves] at run
          rw [iterate_more run (Nat.lt_succ_self _)]
          exact ih left next

theorem skipUntil_eq (stop : Token → Bool) :
    skipUntil stop = (do let _ ← iterate (skipRound stop) 0) := by
  funext ⟨⟨t, ahead⟩, reported⟩
  obtain ⟨left, run⟩ := iterate_skipRound stop 0 t ahead reported
  rw [bind_some run]
  rfl

/-- One round over a closing parenthesis that nothing opened. -/
def strayRound : Parser (Unit × Bool) := do
  skipUntil fun t => t.isPunctuation .semicolon || t.isKeyword .select
  return ((), ← acceptPunctuation .rightParen)

instance : Stepwise strayRound := by
  unfold strayRound
  infer_instance

theorem skipStatement_eq : skipStatement = iterate (fun _ => strayRound) () := rfl

theorem strayRound_spends : Spends strayRound :=
  fun _ => .behind fun _ _ => Takes.acceptPunctuation.orFalse fun _ _ => .pure Bool.false_ne_true

theorem chainRound_spends {operand : Parser α} {table : TokenKind → Option ω}
    {join : ω → α → α → α} {left : α} [Stepwise operand] (rejects : table .endOfInput = none) :
    Spends (chainRound operand (operator? table) join left) := by
  refine fun _ => @Takes.orNone _ _ _ _ _ _ _ inferInstance ?_ (Takes.operator? rejects)
    fun _ => .pure Bool.false_ne_true
  intro op
  apply Stepwise.next
  rintro (_ | right) <;> infer_instance

/-! Names and data types. -/

theorem namePart_spends : Spends namePart := by
  rw [namePart_eq]
  exact fun _ => Takes.acceptPunctuation.orFalse fun _ _ => .pure Bool.false_ne_true

theorem starPart_spends : Spends starPart :=
  fun _ => Takes.identifier.attempt.orNone fun _ => .pure Bool.false_ne_true

theorem typeArgument_spends : Spends typeArgument := by
  refine fun s => .look ?_
  split
  · exact .pure Bool.false_ne_true
  · rename_i goesOn
    refine .followed (.advance (Bool.eq_false_iff.2 fun ends => goesOn ?_))
    exact Bool.or_eq_true_iff.2 (.inl ends)

section Level

variable {inner : Level} [inner.Stepwise]

theorem whenBranch_spends : Spends (whenBranch inner) :=
  fun _ => Takes.acceptKeyword.orFalse fun _ _ => .pure Bool.false_ne_true

/-! Joins. -/

theorem joinOperator?_takes {s : State} : Takes joinOperator? s (·.isSome = true) := by
  refine .look (.look ?_)
  cases isJoin : joinKind? s.cursor.current (s.cursor.peek 1) with
  | none => exact .pure Bool.false_ne_true
  | some kind =>
      have inside : s.cursor.isAtEnd = false := Cursor.isAtEnd_eq_false rfl fun ends => by
        simp [joinKind?, ends] at isJoin
      dsimp only
      split
      · exact .followed (.advance inside)
      · refine Takes.acceptKeyword.orFalse fun s' run => ?_
        obtain rfl := eq_of_accept run
        exact .followed (.advance inside)

theorem join_spends (left : TableSource) : Spends (join inner left) := by
  refine fun _ => @Takes.orNone _ _ _ _ _ _ _ inferInstance ?_ joinOperator?_takes
    fun _ => .pure Bool.false_ne_true
  intro kind
  apply Stepwise.next
  rintro (_ | right) <;> infer_instance

/-! Queries. -/

theorem commonTable_spends : Spends (commonTable inner) := by
  have head {s : State} : Takes (attempt commonTableHead) s (·.isSome = true) :=
    .attempt (.followed .requireIdentifier)
  refine fun _ => @Takes.orNone _ _ _ _ _ _ _ inferInstance ?_ head fun _ =>
    .behind fun _ _ => .pure Bool.false_ne_true
  rintro ⟨name, columns⟩
  infer_instance

theorem setOperator?_takes {s : State} : Takes setOperator? s (·.isSome = true) :=
  Takes.acceptKeyword.orFalse fun _ _ => Takes.acceptKeyword.orFalse fun _ _ =>
    Takes.acceptKeyword.orFalse fun _ _ => .pure Bool.false_ne_true

/-- The left side of a set operation, if one follows. -/
def leftSide (inner : Level) : Parser ((Query × Option SetOperator) × Bool) := do
  let left ← queryTerm inner
  let operator? ← setOperator?
  return ((left, operator?), operator?.isSome)

instance : Stepwise (leftSide inner) := by
  unfold leftSide
  infer_instance

theorem leftSide_spends : Spends (leftSide inner) :=
  fun _ => .behind fun _ _ => setOperator?_takes.orNone fun _ => .pure Bool.false_ne_true

theorem queryChain_eq {s : State} (closed : Closed s.cursor.tokens) :
    queryChain inner s = (do
      let left ← queryTerm inner
      match ← setOperator? with
      | none => return left
      | some operator =>
          match ← attempt (queryChain inner) with
          | some right => return { left with setOperation := some ⟨operator, right⟩ }
          | none => return left) s := by
  rcases first : queryTerm inner s with ⟨_ | left, s₁⟩
  · rw [bind_apply, first]
    exact chainRight_nothing first
  · obtain ⟨operator?, s₂, second⟩ := Total.result (p := setOperator?) s₁
    rw [bind_some first, bind_some second]
    cases operator? with
    | none => exact chainRight_stop first second nofun
    | some operator =>
        have asks : leftSide inner s = (some ((left, some operator), true), s₂) := by
          rw [leftSide, bind_some first, bind_some second]
          rfl
        rw [queryChain_more first second (leftSide_spends s closed asks rfl)]
        dsimp only
        rw [bind_apply, attempt]
        rcases queryChain inner s₂ with ⟨_ | right, s₃⟩ <;> rfl

end Level

/-! Statements. -/

theorem query_takes {s : State} (starts : s.cursor.startsQuery = true) :
    Takes (attempt query) s fun _ => True := by
  intro closed _ s' run _
  obtain ⟨-, rfl⟩ := Prod.mk.inj run
  have begun : Onward ⟨s.cursor.advance, []⟩ ((level nestingLimit).query ⟨s.cursor, []⟩).2 :=
    query_onward starts
  -- that a query takes a step is known where nothing was complained of before
  have same : ((level nestingLimit).query s).2.cursor =
      ((level nestingLimit).query ⟨s.cursor, []⟩).2.cursor := cursor_run rfl
  have finished : Onward ((level nestingLimit).query s).2 (query s).2 :=
    bind_onward (p := attempt (level nestingLimit).query) (fun _ => Stepwise.advances _) s
  calc (query s).2.remaining
      ≤ ((level nestingLimit).query s).2.remaining := finished.remaining_le
    _ = ((level nestingLimit).query ⟨s.cursor, []⟩).2.remaining := by
      rw [State.remaining, same, State.remaining]
    _ ≤ s.cursor.advance.remaining := begun.remaining_le
    _ < s.remaining := fewer_behind_advance closed (Cursor.isAtEnd_of_startsQuery starts)

theorem cursor_reportOtherStatement (s : State) :
    (reportOtherStatement s).2.cursor = s.cursor := by
  rw [reportOtherStatement, current, bind_some (looks _ _)]
  cases s.cursor.current.kind with
  | keyword k =>
      dsimp only
      split <;> exact cursor_report _ _
  | _ => exact cursor_report _ _

theorem otherStatement_takes {s : State} (inside : s.cursor.isAtEnd = false) :
    Takes otherStatement s fun _ => True := by
  refine .bind (.absent (P := fun _ => False) fun _ _ _ => id) fun u s' run => .inr ?_
  have here : s'.cursor = s.cursor := by
    rw [← cursor_reportOtherStatement s, run]
  exact .followed (.advance (here ▸ inside))

theorem statement_spends : Spends statement := by
  refine fun s => Takes.acceptPunctuation.orFalse fun s' run => ?_
  obtain rfl := eq_of_accept run
  refine .look ?_
  cases ends : s.cursor.isAtEnd with
  | true => exact .pure Bool.false_ne_true
  | false =>
      refine .look ?_
      cases starts : s.cursor.startsQuery with
      | true => exact .followed (query_takes starts)
      | false => exact .followed (otherStatement_takes ends)

/-- Only at the end of the input no other statement is asked for. -/
theorem statement_stops :
    Triple (fun _ => True) statement (fun found s => found.2 = false → s.cursor.isAtEnd = true)
      fun _ => True := by
  have any {α : Type} (p : Parser α) :
      Triple (fun _ => True) p (fun _ _ => True) fun _ => True := by
    intro s _
    split <;> trivial
  refine .bind (any _) fun found => ?_
  cases found with
  | true => exact .pure fun _ _ asks => Bool.noConfusion asks
  | false =>
      refine .bind (Q := fun ends s => s.cursor.isAtEnd = ends) (.look fun _ _ => rfl) ?_
      intro ends
      cases ends with
      | true => exact .pure fun _ ends _ => ends
      | false =>
          refine .bind (Q := fun _ _ => True) (.look fun _ _ => trivial) fun starts => ?_
          cases starts with
          | true => exact .bind (any _) fun _ => .pure fun _ _ asks => Bool.noConfusion asks
          | false => exact .bind (any _) fun _ => .pure fun _ _ asks => Bool.noConfusion asks

end Parser

end QueryNames.Grammar
