import QueryNames.Proofs.Depth.Query
import QueryNames.Proofs.Groups.Open
import QueryNames.Proofs.Stepwise.Query
import QueryNames.Proofs.Written.Rules

/-!
What a parser does to the number of open groups. Main statements: the rules by which it comes back
to the depth where it began, or goes one group in or out, unless it complains or passes over a group
that is never closed.
-/

namespace QueryNames

/-- Neither a parenthesis nor an end of input. -/
def TokenKind.isOrdinary (k : TokenKind) : Bool :=
  k != .punctuation .leftParen && k != .punctuation .rightParen && k != .endOfInput

namespace Grammar

variable {whole seen : List Token} {n m l : Nat}

class Ordinary (t : Token) : Prop where
  isParen : t.isParen = false
  isEnd : t.isEnd = false

class Opening (t : Token) : Prop where
  opens : t.isPunctuation .leftParen = true

instance (t : { t : Token // Ordinary t }) : Ordinary t.val := t.property

instance (t : { t : Token // Opening t }) : Opening t.val := t.property

instance : Inhabited { t : Token // Opening t } := ⟨⟨.punctuation .leftParen, "(", .none⟩, ⟨rfl⟩⟩

/-- Only ordinary tokens pass the test. -/
class OnlyOrdinary (q : Token → Bool) : Prop where
  ordinary (t : Token) : q t = true → Ordinary t

/-- No opening parenthesis passes the test. -/
class NeverOpens (q : Token → Bool) : Prop where
  kind_ne (t : Token) : q t = true → t.kind ≠ .punctuation .leftParen

theorem Ordinary.of_kind {t : Token} {k : TokenKind} (is : t.kind = k)
    (ordinary : k.isOrdinary = true) : Ordinary t := by
  subst is
  simp only [TokenKind.isOrdinary, Bool.and_eq_true, bne_iff_ne] at ordinary
  constructor
  · simp [Token.isParen, Token.isPunctuation, ordinary]
  · simp [Token.isEnd, ordinary]

instance : Inhabited { t : Token // Ordinary t } := ⟨⟨.star, "*", .none⟩, .of_kind rfl rfl⟩

instance (k : Keyword) : OnlyOrdinary (·.isKeyword k) where
  ordinary t is := by
    have kind : t.kind = .keyword k := Token.isKeyword_iff.1 is
    exact .of_kind kind rfl

instance (word : String) : OnlyOrdinary (·.isWord word) where
  ordinary _ is := .of_kind (Parser.KeepsFrom.kind_of_isWord is) rfl

theorem onlyOrdinary_punctuation {p : Punctuation}
    (ordinary : (TokenKind.punctuation p).isOrdinary = true) :
    OnlyOrdinary (·.isPunctuation p) where
  ordinary t is := by
    have kind : t.kind = .punctuation p := Token.isPunctuation_iff.1 is
    exact .of_kind kind ordinary

instance : OnlyOrdinary (·.isPunctuation .comma) := onlyOrdinary_punctuation rfl

instance : OnlyOrdinary (·.isPunctuation .semicolon) := onlyOrdinary_punctuation rfl

instance : OnlyOrdinary (·.isPunctuation .period) := onlyOrdinary_punctuation rfl

instance (q r : Token → Bool) [OnlyOrdinary q] [OnlyOrdinary r] :
    OnlyOrdinary fun t => q t || r t where
  ordinary t is := by
    rcases Bool.or_eq_true_iff.1 is with is | is
    · exact OnlyOrdinary.ordinary t is
    · exact OnlyOrdinary.ordinary t is

instance (q r : Token → Bool) [OnlyOrdinary q] : OnlyOrdinary fun t => q t && r t where
  ordinary t is := OnlyOrdinary.ordinary t (Bool.and_eq_true_iff.1 is).1

instance : NeverOpens endsClause := ⟨fun _ => Parser.kind_of_endsClause⟩

instance : NeverOpens endsItem := ⟨fun _ => Parser.kind_of_endsItem⟩

instance : NeverOpens endsOrderItem where
  kind_ne t ends := by
    simp only [endsOrderItem, Bool.or_eq_true] at ends
    rcases ends with ((ends | word) | word) | word
    · exact Parser.kind_of_endsItem ends
    all_goals simp [Parser.KeepsFrom.kind_of_isWord word]

/-- Something is wrong already, or a group is left open that was passed over. -/
def Over (whole : List Token) (s : State) : Prop :=
  Complained s ∨ (LeftOpen whole ∧ ∃ left, opened 0 whole = some left)

theorem lasting_over : Lasting (Over whole) where
  onward already _ := already
  complained _ _ :=
    .inl (Parser.report_complains (P := fun _ => True) (E := Complained).ends trivial)

namespace Parser

/-- From one state on, the parser comes to `m` open groups, or something is wrong. -/
abbrev Reaches (whole : List Token) (m : Nat) (p : Parser α) (s : State) : Prop :=
  Triple (s = ·) p (fun _ s => Over whole s ∨ Stands whole m s.cursor) (Over whole)

/-- From `n` open groups on, with the tokens ahead that have been seen, the parser comes to `m` open
groups if it finds something, and if it finds nothing something is wrong. -/
class Counts (whole seen : List Token) (n : Nat) (m : outParam Nat) (p : Parser α) : Prop where
  stepwise : Stepwise p
  runs : Triple (fun s => Stands whole n s.cursor ∧ Seen seen s.cursor) p
    (fun _ s => Over whole s ∨ Stands whole m s.cursor) (Over whole)

namespace Counts

theorem staysOver (p : Parser α) [Stepwise p] :
    Triple (Over whole) p (fun _ => Over whole) (Over whole) := by
  intro s start
  rcases run : p s with ⟨_ | a, s'⟩
  · exact Stepwise.of_run lasting_over start run
  · exact Stepwise.of_run lasting_over start run

/-- Where something is wrong it stays so. -/
theorem orOver {p : Parser α} [Stepwise p] {P : State → Prop} {Q : α → State → Prop}
    (runs : Triple P p (fun a s => Over whole s ∨ Q a s) (Over whole)) :
    Triple (fun s => Over whole s ∨ P s) p (fun a s => Over whole s ∨ Q a s) (Over whole) := by
  rintro s (start | start)
  · exact (staysOver p).weaken (fun _ => id) (fun _ _ => .inl) (fun _ => id) s start
  · exact runs s start

/-- Behind a parser that counts groups. -/
theorem behind {p : Parser α} (counts : Counts whole [] n m p) :
    Triple (fun s => Over whole s ∨ Stands whole n s.cursor) p
      (fun _ s => Over whole s ∨ Stands whole m s.cursor) (Over whole) := by
  have := counts.stepwise
  exact orOver (counts.runs.weaken (fun _ start => ⟨start, trivial⟩) (fun _ _ => id) (fun _ => id))

theorem complains {p : Parser α} [Stepwise p]
    (complaint : Triple (fun _ => True) p (fun _ => Complained) Complained) :
    Counts whole seen n m p where
  stepwise := inferInstance
  runs := complaint.weaken (fun _ _ => trivial) (fun _ _ complained => .inl (.inl complained))
    (fun _ => .inl)

instance (priority := low) weaken (t : Token) (p : Parser α) [counts : Counts whole [] n m p] :
    Counts whole (t :: seen) n m p where
  stepwise := counts.stepwise
  runs := counts.runs.weaken (fun _ start => ⟨start.1, trivial⟩) (fun _ _ => id) (fun _ => id)

instance (priority := low) truncate (t u : Token) (p : Parser α) [counts : Counts whole [t] n m p] :
    Counts whole (t :: u :: seen) n m p where
  stepwise := counts.stepwise
  runs := counts.runs.weaken (fun _ start => ⟨start.1, start.2.1, fun _ => trivial⟩) (fun _ _ => id)
    (fun _ => id)

instance (a : α) : Counts whole seen n n (pure a : Parser α) where
  stepwise := inferInstance
  runs := .pure fun _ start => .inr start.1

instance (a : α) : Counts whole seen n n (ofOption (some a)) :=
  inferInstanceAs (Counts whole seen n n (pure a))

instance bind (p : Parser α) (f : α → Parser β) [first : Counts whole seen n l p]
    [rest : ∀ a, Counts whole [] l m (f a)] : Counts whole seen n m (p >>= f) where
  stepwise := @Stepwise.bind _ _ p f first.stepwise fun a => (rest a).stepwise
  runs := first.runs.bind fun a => (rest a).behind

/-- The same, for what follows by cases on the result. -/
theorem next {p : Parser α} {f : α → Parser β} [Counts whole seen n l p]
    (rest : ∀ a, Counts whole [] l m (f a)) : Counts whole seen n m (p >>= f) := bind p f

instance (p : Parser α) [counts : Counts whole seen n n p] :
    Counts whole seen n n (attempt p) where
  stepwise := have := counts.stepwise; inferInstance
  runs := .attempt (counts.runs.weaken (fun _ => id) (fun _ _ => id) (fun _ => .inl))

/-- Where nothing is found something is wrong, and what follows need not count. -/
instance (priority := high) attemptBind (p : Parser α) (f : Option α → Parser β)
    [first : Counts whole seen n l p] [nothing : Stepwise (f none)]
    [something : ∀ a, Counts whole [] l m (f (some a))] :
    Counts whole seen n m (attempt p >>= f) where
  stepwise := by
    have := first.stepwise
    apply Stepwise.next
    rintro (_ | a)
    · exact nothing
    · exact (something a).stepwise
  runs := by
    apply Triple.bind (Q := fun a? s => Over whole s ∨ (a?.isSome = true ∧ Stands whole l s.cursor))
    · apply Triple.attempt
      exact first.runs.weaken (fun _ => id) (fun _ _ found => found.imp_right (.intro rfl))
        (fun _ => .inl)
    · rintro (_ | a)
      · rintro s (already | ⟨found, -⟩)
        · exact (staysOver (f none)).weaken (fun _ => id) (fun _ _ => .inl) (fun _ => id) s already
        · cases found
      · exact (something a).behind.weaken (fun _ start => start.imp_right And.right) (fun _ _ => id)
          (fun _ => id)

instance (f : α → β) (p : Parser α) [Counts whole seen n m p] : Counts whole seen n m (f <$> p) :=
  bind p fun a => pure (f a)

instance (condition : Prop) [Decidable condition] (p q : Parser α) [Counts whole seen n m p]
    [Counts whole seen n m q] : Counts whole seen n m (if condition then p else q) := by
  split <;> infer_instance

instance (p q : Parser α) [Counts whole seen n m p] :
    Counts whole seen n m (if true = true then p else q) :=
  inferInstanceAs (Counts whole seen n m p)

instance (p q : Parser α) [Counts whole seen n m q] :
    Counts whole seen n m (if false = true then p else q) :=
  inferInstanceAs (Counts whole seen n m q)

instance (condition : Bool) (p : Parser α) [Counts whole seen n n p] :
    Counts whole seen n n (onlyIf condition p) := by
  unfold onlyIf
  infer_instance

instance (p : Parser α) : Counts whole seen n n (onlyIf false p) :=
  inferInstanceAs (Counts whole seen n n (pure none))

instance (a : α) (p : Parser β) : Counts whole seen n n (onlyIf (some a).isNone p) :=
  inferInstanceAs (Counts whole seen n n (pure none))

instance (condition : Bool) (p : Parser α) [Counts whole seen n n p] :
    Counts whole seen n n (requiredIf condition p) := by
  unfold requiredIf
  infer_instance

/-! Looking. -/

/-- What is seen is known until the cursor moves. -/
theorem looking {f : Cursor → α} {g : α → Parser β} (known : α → List Token)
    (found : ∀ c, Seen seen c → Seen (known (f c)) c)
    (rest : ∀ a, Counts whole (known a) n m (g a)) : Counts whole seen n m (look f >>= g) where
  stepwise := by
    have (a : α) : Stepwise (g a) := (rest a).stepwise
    infer_instance
  runs := fun s start => (rest (f s.cursor)).runs s ⟨start.1, found s.cursor start.2⟩

instance look (f : Cursor → α) (g : α → Parser β) [rest : ∀ a, Counts whole seen n m (g a)] :
    Counts whole seen n m (look f >>= g) :=
  looking (fun _ => seen) (fun _ => id) rest

instance place (g : Location → Parser α) [rest : ∀ a, Counts whole seen n m (g a)] :
    Counts whole seen n m (place >>= g) := look _ g

/-- The same, for what follows by cases on the token. -/
theorem token {g : Token → Parser α} (rest : ∀ t, Counts whole [t] n m (g t)) :
    Counts whole [] n m (current >>= g) :=
  looking (fun t => [t]) (fun _ _ => ⟨rfl, fun _ => trivial⟩) rest

instance peek (g : Token → Parser α) [rest : ∀ t u, Counts whole [t, u] n m (g u)] :
    Counts whole [] n m (peek 1 >>= g) where
  stepwise := by
    have (u : Token) : Stepwise (g u) := (rest u u).stepwise
    infer_instance
  runs s start := (rest s.cursor.current _).runs s ⟨start.1, seen_peek s.cursor⟩

/-- The same, for what follows by cases on the two tokens. -/
theorem following {t : Token} {g : Token → Parser α} (rest : ∀ u, Counts whole [t, u] n m (g u)) :
    Counts whole [t] n m (Parser.peek 1 >>= g) where
  stepwise := by
    have (u : Token) : Stepwise (g u) := (rest u).stepwise
    infer_instance
  runs := by
    rintro s ⟨stands, rfl, -⟩
    exact (rest _).runs s ⟨stands, seen_peek s.cursor⟩

instance (t : Token) (g : Token → Parser α) [rest : ∀ u, Counts whole [t, u] n m (g u)] :
    Counts whole [t] n m (Parser.peek 1 >>= g) := following rest

/-- What is seen may tell the current token. -/
theorem telling {f : Cursor → Bool} {g : Bool → Parser α} (P : Token → Prop)
    [some_ : Inhabited { t : Token // P t }] (tells : ∀ c, f c = true → P c.current)
    (yes : ∀ t : { t : Token // P t }, Counts whole [t.val] n m (g true))
    (no : Counts whole seen n m (g false)) : Counts whole seen n m (Parser.look f >>= g) where
  stepwise := by
    apply Stepwise.next
    rintro (_ | _)
    · exact no.stepwise
    · exact (yes some_.default).stepwise
  runs s start := by
    rw [bind_apply]
    dsimp only [Parser.look]
    cases found : f s.cursor with
    | false => exact no.runs s start
    | true => exact (yes ⟨_, tells _ found⟩).runs s ⟨start.1, rfl, fun _ => trivial⟩

instance (priority := low) (q : Token → Bool) (g : Bool → Parser α)
    [rest : ∀ b, Counts whole seen n m (g b)] : Counts whole seen n m (check q >>= g) := look _ g

instance check (q : Token → Bool) [OnlyOrdinary q] (g : Bool → Parser α)
    [yes : ∀ t : { t : Token // Ordinary t }, Counts whole [t.val] n m (g true)]
    [no : Counts whole seen n m (g false)] : Counts whole seen n m (check q >>= g) :=
  telling Ordinary (fun _ found => OnlyOrdinary.ordinary _ found) yes no

instance checkOpening (g : Bool → Parser α)
    [yes : ∀ t : { t : Token // Opening t }, Counts whole [t.val] n m (g true)]
    [no : Counts whole seen n m (g false)] :
    Counts whole seen n m (Parser.check (·.isPunctuation .leftParen) >>= g) :=
  telling Opening (fun _ => Opening.mk) yes no

instance opensQuery (g : Bool → Parser α)
    [yes : ∀ t : { t : Token // Opening t }, Counts whole [t.val] n m (g true)]
    [no : Counts whole seen n m (g false)] :
    Counts whole seen n m (Parser.look Cursor.opensQuery >>= g) :=
  telling Opening (fun _ opens => ⟨(Bool.and_eq_true_iff.1 opens).1⟩) yes no

instance opensQueryDeep (g : Bool → Parser α)
    [yes : ∀ t : { t : Token // Opening t }, Counts whole [t.val] n m (g true)]
    [no : Counts whole seen n m (g false)] :
    Counts whole seen n m (Parser.look Cursor.opensQueryDeep >>= g) :=
  telling Opening (fun _ opens => ⟨(Bool.and_eq_true_iff.1 opens).1⟩) yes no

/-! Moving. -/

instance (t : Token) [ordinary : Ordinary t] : Counts whole (t :: seen) n n advance where
  stepwise := inferInstance
  runs := by
    rintro s ⟨stands, rfl, -⟩
    exact .inr (stands.pass ordinary.isEnd ordinary.isParen)

instance advance (t : Token) [ordinary : Ordinary t] (f : Unit → Parser α)
    [rest : Counts whole seen n m (f ())] :
    Counts whole (t :: seen) n m (advance >>= f) where
  stepwise := have := rest.stepwise; inferInstance
  runs := by
    rintro s ⟨stands, rfl, ahead⟩
    exact rest.runs { s with cursor := s.cursor.advance }
      ⟨stands.pass ordinary.isEnd ordinary.isParen, ahead ordinary.isEnd⟩

instance enter (t : Token) [opening : Opening t] (f : Unit → Parser α)
    [rest : Counts whole seen (n + 1) m (f ())] :
    Counts whole (t :: seen) n m (Parser.advance >>= f) where
  stepwise := have := rest.stepwise; inferInstance
  runs := by
    rintro s ⟨stands, rfl, ahead⟩
    exact rest.runs { s with cursor := s.cursor.advance }
      ⟨stands.enter opening.opens, ahead (Cursor.isAtEnd_of_isPunctuation opening.opens)⟩

/-- What is known ahead of a token that is not accepted stays known. -/
theorem accepting {q : Token → Bool} {f : Bool → Parser α} (l : Nat) (seen' : List Token)
    (moves : ∀ c, Stands whole n c → Seen seen c → q c.current = true →
      Stands whole l c.advance ∧ Seen seen' c.advance)
    [yes : Counts whole seen' l m (f true)] [no : Counts whole seen n m (f false)] :
    Counts whole seen n m (accept q >>= f) where
  stepwise := by
    apply Stepwise.next
    rintro (_ | _)
    · exact no.stepwise
    · exact yes.stepwise
  runs s start := by
    rw [bind_apply, accept]
    cases found : q s.cursor.current with
    | false => exact no.runs s start
    | true => exact yes.runs { s with cursor := s.cursor.advance } (moves _ start.1 start.2 found)

instance accept (t : Token) (q : Token → Bool) [only : OnlyOrdinary q] (f : Bool → Parser α)
    [Counts whole seen n m (f true)] [Counts whole (t :: seen) n m (f false)] :
    Counts whole (t :: seen) n m (accept q >>= f) := by
  apply accepting n seen
  rintro c stands ⟨rfl, ahead⟩ found
  have ordinary := only.ordinary _ found
  exact ⟨stands.pass ordinary.isEnd ordinary.isParen, ahead ordinary.isEnd⟩

instance (q : Token → Bool) [only : OnlyOrdinary q] :
    Counts whole [] n n (Parser.accept q) := by
  rw [← bind_pure (Parser.accept q)]
  apply accepting n []
  intro c stands _ found
  have ordinary := only.ordinary _ found
  exact ⟨stands.pass ordinary.isEnd ordinary.isParen, trivial⟩

/-! Words, signs and complaints. -/

instance (k : Keyword) : Counts whole [] n n (acceptKeyword k) :=
  inferInstanceAs (Counts whole [] n n (Parser.accept _))

instance (t : Token) (k : Keyword) (f : Bool → Parser α) [Counts whole seen n m (f true)]
    [Counts whole (t :: seen) n m (f false)] :
    Counts whole (t :: seen) n m (acceptKeyword k >>= f) := accept t _ f

instance (word : String) : Counts whole [] n n (acceptWord word) :=
  inferInstanceAs (Counts whole [] n n (Parser.accept _))

instance (p : Punctuation) [OnlyOrdinary (·.isPunctuation p)] :
    Counts whole [] n n (acceptPunctuation p) :=
  inferInstanceAs (Counts whole [] n n (Parser.accept _))

/-- A group that may follow. -/
instance acceptOpening (f : Bool → Parser α) [Counts whole [] (n + 1) m (f true)]
    [Counts whole [] n m (f false)] :
    Counts whole [] n m (acceptPunctuation .leftParen >>= f) := by
  apply accepting (n + 1) []
  intro c stands _ found
  exact ⟨stands.enter found, trivial⟩

/-- A group that may be empty. -/
instance acceptClosing (f : Bool → Parser α) [Counts whole [] n m (f true)]
    [Counts whole [] (n + 1) m (f false)] :
    Counts whole [] (n + 1) m (acceptPunctuation .rightParen >>= f) := by
  apply accepting n []
  intro c stands _ found
  exact ⟨stands.leave found, trivial⟩

instance (expected : Expected) : Counts whole seen n n (reportMissing expected) :=
  complains reportMissing_complains

instance (expected : Expected) : Counts whole seen n n (missing expected : Parser α) :=
  complains missing_complains

instance (ends : Token → Bool) : Counts whole seen n n (tooDeep ends : Parser α) :=
  complains tooDeep_complains

instance (k : Keyword) : Counts whole [] n n (requireKeyword k) := by
  unfold requireKeyword
  infer_instance

instance (p : Punctuation) [OnlyOrdinary (·.isPunctuation p)] :
    Counts whole [] n n (requirePunctuation p) := by
  unfold requirePunctuation
  infer_instance

instance : Counts whole [] n (n + 1) (requirePunctuation .leftParen) := by
  have missed : Counts whole [] n (n + 1) (missing (.punctuation .leftParen) : Parser Unit) :=
    complains missing_complains
  unfold requirePunctuation
  infer_instance

instance (p : Parser Unit) [Counts whole seen n n p] : Counts whole seen n n (succeeds p) := by
  unfold succeeds
  infer_instance

/-! Groups. -/

theorem closeParen_runs :
    Triple (fun s => s.cursor.current.isPunctuation .rightParen = true →
        Stands whole (n + 1) s.cursor)
      closeParen (fun _ s => Over whole s ∨ Stands whole n s.cursor) (Over whole) := by
  intro s start
  cases closes : s.cursor.current.isPunctuation .rightParen with
  | false =>
      exact closeParen_complains.weaken (fun _ => id) (fun _ _ complained => .inl (.inl complained))
        (fun _ => .inl) s closes
  | true =>
      have accepted : closeParen s = (some (), { s with cursor := s.cursor.advance }) := by
        simp only [closeParen, acceptPunctuation, Parser.accept, bind_apply, closes, if_true]
        rfl
      rw [accepted]
      exact .inr ((start closes).leave closes)

instance : Counts whole [] (n + 1) n closeParen where
  stepwise := inferInstance
  runs := closeParen_runs.weaken (fun _ start _ => start.1) (fun _ _ => id) (fun _ => id)

/-- A group that is skipped to the end of input is missed where it should close. -/
instance skipGroup (condition : Bool) (f : Unit → Parser α)
    [rest : ∀ u, Counts whole [] n m (f u)] :
    Counts whole [] (n + 1) m (onlyIf condition skipGroup >>= fun _ => closeParen >>= f) where
  stepwise := by
    have (u : Unit) : Stepwise (f u) := (rest u).stepwise
    infer_instance
  runs := by
    apply Triple.bind (Q := fun _ s => s.cursor.current.isPunctuation .rightParen = true →
      Stands whole (n + 1) s.cursor)
    · apply Triple.onlyIf
      · intro _
        apply Triple.move
        intro s start closes
        obtain ⟨passed, left, split, number, ends⟩ := Cursor.skipGroup_opened start.1.ended.closed
        rcases ends with ⟨rfl, -⟩ | last
        · exact start.1.skip split number
        · rw [Cursor.isAtEnd_of_isPunctuation closes] at last
          cases last
      · exact fun _ s start _ => start.1
    · exact fun _ => closeParen_runs.bind fun u => (rest u).behind

/-! Lists and clauses. -/

/-- Behind an item that was read nothing is passed over without a complaint. -/
theorem finish_runs (ends : Token → Bool) [never : NeverOpens ends] (expected : Expected) :
    Triple (fun s => Stands whole n s.cursor) (do
        let _ ← onlyIf (true && !ends (← current)) (reportSurplus expected)
        skipUntil ends)
      (fun _ s => Over whole s ∨ Stands whole n s.cursor) (Over whole) := by
  apply Triple.bind (Q := fun t s => Stands whole n s.cursor ∧ s.cursor.current = t)
  · exact .look fun s stands => ⟨stands, rfl⟩
  · intro t
    apply Triple.bind (Q := fun _ s => Over whole s ∨
      (Stands whole n s.cursor ∧ ends s.cursor.current = true))
    · apply Triple.onlyIf
      · intro _
        exact reportSurplus_complains.weaken (fun _ => id)
          (fun _ _ complained => .inl (.inl complained)) (fun _ => id)
      · rintro found s ⟨stands, rfl⟩
        exact .inr ⟨stands, by simpa using found⟩
    · rintro _ s (already | ⟨stands, found⟩)
      · exact .inl already
      · rw [skipUntil_stop found (never.kind_ne _ found)]
        exact .inr stands

instance (ends : Token → Bool) [NeverOpens ends] (a : α) :
    Counts whole [] n n (finishItem ends (some a).isSome) where
  stepwise := inferInstance
  runs := by
    have comma : Counts whole [] n n (acceptPunctuation .comma) := inferInstance
    show Triple _ (_ >>= _) _ _
    have first := @finish_runs whole n ends _ .commaOrEndOfList
    have both := first.bind fun _ => comma.behind
    simp only [bind_assoc] at both
    exact both.weaken (fun _ start => start.1) (fun _ _ => id) (fun _ => id)

instance : Counts whole [] n n (finishClause true) where
  stepwise := inferInstance
  runs := (finish_runs endsClause .endOfClause).weaken (fun _ start => start.1) (fun _ _ => id)
    (fun _ => id)

instance (a : α) : Counts whole [] n n (finishClause (some a).isSome) :=
  inferInstanceAs (Counts whole [] n n (finishClause true))

/-! Repetition. -/

instance (step : β → Parser (β × Bool)) (b : β) [round : ∀ b, Counts whole [] n n (step b)] :
    Counts whole [] n n (iterate step b) where
  stepwise := by
    have (b : β) : Stepwise (step b) := (round b).stepwise
    infer_instance
  runs := by
    have rounds := Triple.iterate (I := fun _ s => Over whole s ∨ Stands whole n s.cursor)
      (fun b => (round b).behind) b
    exact rounds.weaken (fun _ start => .inr start.1) (fun _ _ => id) (fun _ => id)

instance (step : Parser (Option α × Bool)) [round : Counts whole [] n n step] :
    Counts whole [] n n (collect step) where
  stepwise := by
    have := round.stepwise
    infer_instance
  runs := by
    have rounds := Triple.collect (I := fun _ s => Over whole s ∨ Stands whole n s.cursor)
      (fun _ => round.behind) []
    exact rounds.weaken (fun _ start => .inr start.1) (fun _ _ => id) (fun _ => id)

instance (ends : Token → Bool) [NeverOpens ends] (item : Parser α)
    [counts : Counts whole [] n n item] : Counts whole [] n n (commaList ends item) := by
  have := counts.stepwise
  unfold commaList
  infer_instance

instance (operand : Parser α) (operator : Parser (Option ω)) (join : ω → α → α → α)
    [Counts whole [] n n operand] [Counts whole [] n n operator] :
    Counts whole [] n n (chainLeft operand operator join) := by
  have round (left : α) : Counts whole [] n n (chainRound operand operator join left) := by
    apply next
    intro op?
    cases op? <;> infer_instance
  rw [chainLeft_eq]
  infer_instance

instance (operand : Parser α) (operator : Parser (Option ω)) (join : α → ω → α → α)
    [first : Counts whole [] n n operand] [between : Counts whole [] n n operator] :
    Counts whole [] n n (chainRight operand operator join) where
  stepwise := by
    have := first.stepwise
    have := between.stepwise
    infer_instance
  runs := by
    have loose {β : Type} {p : Parser β} (counts : Counts whole [] n n p) :
        Triple (fun s => Over whole s ∨ Stands whole n s.cursor) p
          (fun _ s => Over whole s ∨ Stands whole n s.cursor)
          (fun s => Over whole s ∨ Stands whole n s.cursor) :=
      counts.behind.weaken (fun _ => id) (fun _ _ => id) (fun _ => .inl)
    intro s start
    rcases run : chainRight operand operator join s with ⟨_ | a, s'⟩
    · exact first.runs.of_none start (chainRight_none run)
    · exact (Triple.chainRight (ι := Unit) (f := fun _ _ => ()) (fun _ => loose first)
        (fun _ => loose between) (fun _ _ _ _ _ => id) ()).of_result (.inr start.1) run

/-! Single runs. -/

theorem reaches_of_over {p : Parser α} [Stepwise p] {s : State} (already : Over whole s) :
    Reaches whole m p s := by
  rintro _ rfl
  exact (staysOver p).weaken (fun _ => id) (fun _ _ => .inl) (fun _ => id) s already

/-- What is read without a complaint closes no group that it does not open, even if some go
uncounted. -/
theorem opened_of_run {p : Parser α} (counts : ∀ whole, Counts whole [] 0 0 p) {c d : Cursor}
    (ended : Ended c.tokens) {a? : Option α} (run : p ⟨c, []⟩ = (a?, ⟨d, []⟩)) :
    (∃ left, opened 0 c.tokens = some left) ∨
      ∃ front left, front ++ d.tokens = c.tokens ∧ opened 0 front = some left := by
  have reached : Over c.tokens ⟨d, []⟩ ∨ Stands c.tokens 0 d := by
    cases a? with
    | none => exact .inl ((counts _).runs.of_none ⟨.start ended, trivial⟩ run)
    | some a => exact (counts _).runs.of_result ⟨.start ended, trivial⟩ run
  rcases reached with (complained | ⟨-, found⟩) | ⟨front, split, -, left, found, -⟩
  · exact absurd rfl complained
  · exact .inl found
  · exact .inr ⟨front, left, split, found⟩

theorem reaches {p : Parser α} {s : State} (counts : Counts whole seen n m p)
    (stands : Stands whole n s.cursor) (ahead : Seen seen s.cursor) : Reaches whole m p s := by
  rintro _ rfl
  exact counts.runs s ⟨stands, ahead⟩

end Counts

namespace Reaches

variable {s s' : State}

theorem congr {p p' : Parser α} (reaches : Reaches whole m p' s) (same : p s = p' s) :
    Reaches whole m p s := by
  rintro _ rfl
  rw [same]
  exact reaches s rfl

theorem next {p : Parser α} {f : α → Parser β} {a : α} (reaches : Reaches whole m (f a) s')
    (run : p s = (some a, s')) : Reaches whole m (p >>= f) s := by
  rintro _ rfl
  rw [bind_some run]
  exact reaches s' rfl

/-- Behind a complaint nothing needs to count. -/
theorem quietly {p : Parser α} [Stepwise p] (before : Over whole s ∨ Stands whole l s.cursor)
    (quiet : ∀ d, s = ⟨d, []⟩ → Stands whole l d → Reaches whole m p ⟨d, []⟩) :
    Reaches whole m p s := by
  obtain ⟨d, reported⟩ := s
  rcases before with already | stands
  · exact Counts.reaches_of_over already
  · by_cases none_ : reported = []
    · subst none_
      exact quiet d rfl stands
    · exact Counts.reaches_of_over (.inl none_)

/-- What follows is run from where the first parser ends, unless that has complained. -/
theorem bind {p : Parser α} {f : α → Parser β} [∀ a, Stepwise (f a)] (first : Reaches whole l p s)
    (rest : ∀ a d, p s = (some a, ⟨d, []⟩) → Stands whole l d → Reaches whole m (f a) ⟨d, []⟩) :
    Reaches whole m (p >>= f) s := by
  rcases run : p s with ⟨_ | a, s'⟩
  · rintro _ rfl
    rw [bind_apply, run]
    exact first.of_none rfl run
  · refine .next (.quietly (first.of_result rfl run) ?_) run
    rintro d rfl stands
    exact rest a d run stands

/-- Where nothing is found something is wrong, and what follows need not count. -/
theorem attemptBind {p : Parser α} {f : Option α → Parser β} [∀ a?, Stepwise (f a?)]
    (first : Reaches whole l p s)
    (rest : ∀ a d, p s = (some a, ⟨d, []⟩) → Stands whole l d →
      Reaches whole m (f (some a)) ⟨d, []⟩) :
    Reaches whole m (attempt p >>= f) s := by
  rcases run : p s with ⟨_ | a, s'⟩
  · have nothing : attempt p s = (some none, s') := by rw [attempt, run]
    exact .next (Counts.reaches_of_over (first.of_none rfl run)) nothing
  · have something : attempt p s = (some (some a), s') := by rw [attempt, run]
    refine .next (.quietly (first.of_result rfl run) ?_) something
    rintro d rfl stands
    exact rest a d run stands

end Reaches

/-- Only runs count in which nothing is wrong yet. -/
theorem Counts.of_reaches {p : Parser α} [Stepwise p]
    (each : ∀ c, Stands whole n c → Seen seen c → Reaches whole m p ⟨c, []⟩) :
    Counts whole seen n m p where
  stepwise := inferInstance
  runs := by
    rintro s ⟨stands, ahead⟩
    refine Reaches.quietly (.inr stands) ?_ s rfl
    rintro c rfl stands
    exact each c stands ahead

end Parser

end Grammar

end QueryNames
