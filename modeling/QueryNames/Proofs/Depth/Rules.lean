import QueryNames.Grammar.Script
import QueryNames.Proofs.Depth.Inside
import QueryNames.Proofs.Stepwise.Runs

/-!
What a parser does to the number of groups around the cursor. Main statements: the rules by which
it comes back to the depth where it began, or goes one group in or out, if the casts that it reads
are complete.
-/

namespace QueryNames.Grammar

variable {stretch : Stretch} {depth low : Nat}

/-- At `depth` or further inside, but not behind the group around the stretch. Only a cast leaves a
group open, so where all are complete the depth is exact. -/
def Within (stretch : Stretch) (depth : Nat) (s : State) : Prop :=
  (stretch.grouped → depth ≠ 0) ∧ ∃ actual, depth ≤ actual ∧
    Inside stretch actual s.cursor.tokens ∧ (stretch.sound → actual = depth)

namespace Within

variable {s : State}

theorem of_inside (deep : stretch.grouped → depth ≠ 0)
    (inside : Inside stretch depth s.cursor.tokens) : Within stretch depth s :=
  ⟨deep, depth, Nat.le_refl depth, inside, fun _ => rfl⟩

/-- What is so at every depth where the cursor may be. -/
theorem elim {P : Prop} (within : Within stretch depth s)
    (holds : ∀ actual, (stretch.grouped → actual ≠ 0) → Inside stretch actual s.cursor.tokens → P) :
    P := by
  obtain ⟨deep, actual, further, inside, -⟩ := within
  exact holds actual (fun grouped none => deep grouped (by omega)) inside

theorem closed (within : Within stretch depth s) : Closed s.cursor.tokens :=
  within.elim fun _ _ => Inside.closed

theorem isAtEnd_eq_false (within : Within stretch depth s) : s.cursor.isAtEnd = false :=
  within.elim fun _ deep => Inside.isEnd_eq_false deep

theorem tokens_advance (within : Within stretch depth s) :
    s.cursor.advance.tokens = s.cursor.ahead :=
  within.elim fun _ deep => Cursor.tokens_advance_inside deep

theorem current_advance (within : Within stretch depth s) :
    s.cursor.advance.current = s.cursor.peek 1 :=
  within.elim fun _ deep => Cursor.current_advance_inside deep

theorem opensCast_tokens (within : Within stretch depth s) :
    opensCast s.cursor.tokens =
      (s.cursor.current.namesCast && (s.cursor.peek 1).isPunctuation .leftParen) :=
  within.elim fun _ deep => Cursor.opensCast_tokens deep

theorem deepen (within : Within stretch (depth + 1) s) (unsound : ¬stretch.sound)
    (deep : stretch.grouped → depth ≠ 0) : Within stretch depth s := by
  obtain ⟨-, actual, further, inside, -⟩ := within
  exact ⟨deep, actual, by omega, inside, fun sound => absurd sound unsound⟩

theorem enter (within : Within stretch depth s)
    (opens : s.cursor.current.kind = .punctuation .leftParen) :
    Within stretch (depth + 1) { s with cursor := s.cursor.advance } := by
  have step := within.tokens_advance
  obtain ⟨deep, actual, further, inside, exact_⟩ := within
  refine ⟨fun _ => Nat.succ_ne_zero depth, actual + 1, by omega, ?_,
    fun sound => by rw [exact_ sound]⟩
  rw [step]
  exact inside.enter (fun grouped none => deep grouped (by omega)) opens

theorem leave (within : Within stretch (depth + 1) s) (deep : stretch.grouped → depth ≠ 0)
    (closes : s.cursor.current.kind = .punctuation .rightParen) :
    Within stretch depth { s with cursor := s.cursor.advance } := by
  have step := within.tokens_advance
  obtain ⟨-, actual, further, inside, exact_⟩ := within
  obtain ⟨outer, rfl⟩ : ∃ outer, actual = outer + 1 := ⟨actual - 1, by omega⟩
  refine ⟨deep, outer, by omega, ?_, fun sound => by have := exact_ sound; omega⟩
  rw [step]
  exact inside.leave closes

theorem pass (within : Within stretch depth s) (plain : s.cursor.current.isParen = false)
    (before : depth = 0 → s.cursor.current.kind ≠ .keyword .from) :
    Within stretch depth { s with cursor := s.cursor.advance } := by
  have step := within.tokens_advance
  obtain ⟨deep, actual, further, inside, exact_⟩ := within
  refine ⟨deep, actual, further, ?_, exact_⟩
  rw [step]
  exact inside.pass (fun grouped none => deep grouped (by omega)) plain
    fun none => before (by omega)

theorem skipUntil (within : Within stretch depth s) {stop : Token → Bool}
    (stops : depth = 0 → ∀ t : Token, t.kind = .keyword .from → stop t = true) :
    Within stretch depth { s with cursor := s.cursor.skipUntil stop } := by
  obtain ⟨deep, actual, further, inside, exact_⟩ := within
  exact ⟨deep, actual, further, Cursor.skipUntil_inside
    (fun grouped none => deep grouped (by omega)) inside fun none => stops (by omega), exact_⟩

theorem skipGroup (within : Within stretch (depth + 1) s) :
    Within stretch (depth + 1) { s with cursor := s.cursor.skipGroup } ∧
      s.cursor.skipGroup.current.kind = .punctuation .rightParen := by
  obtain ⟨deep, actual, further, inside, exact_⟩ := within
  obtain ⟨outer, rfl⟩ : ∃ outer, actual = outer + 1 := ⟨actual - 1, by omega⟩
  exact ⟨⟨deep, outer + 1, further, Cursor.skipGroup_inside inside, exact_⟩,
    Cursor.skipGroup_closes inside⟩

theorem skipParenthesized (within : Within stretch depth s) :
    Within stretch depth { s with cursor := s.cursor.skipParenthesized } := by
  obtain ⟨deep, actual, further, inside, exact_⟩ := within
  exact ⟨deep, actual, further, Cursor.skipParenthesized_inside
    (fun grouped none => deep grouped (by omega)) inside, exact_⟩

theorem report (within : Within stretch depth s) {reported : List Diagnostic} :
    Within stretch depth { s with reported := reported } := within

end Within

namespace Parser

/-! Casts. -/

/-- A data type is read, and of what stands in parentheses just the group behind its name. -/
def ReadsType (s s' : State) : Prop :=
  (∃ type, dataType s = (some type, s')) ∧
    s'.cursor = (qualifiedName s).2.cursor.skipParenthesized

/-- An expression and behind `AS` a data type. -/
def ReadsAs (n : Nat) (s : State) : Prop :=
  ∃ e s₁, (level n).expression s = (some e, s₁) ∧ s₁.cursor.current.kind = .keyword .as ∧
    ∃ s₂, ReadsType { s₁ with cursor := s₁.cursor.advance } s₂

/-- A data type and behind a comma an expression, and one more if there is one more comma. -/
def ReadsComma (n : Nat) (s : State) : Prop :=
  ∃ s₁, ReadsType s s₁ ∧ s₁.cursor.current.kind = .punctuation .comma ∧
    ∃ e s₂, (level n).expression { s₁ with cursor := s₁.cursor.advance } = (some e, s₂) ∧
      (s₂.cursor.current.kind = .punctuation .comma →
        ∃ style s₃, (level n).expression { s₂ with cursor := s₂.cursor.advance } = (some style, s₃))

/-- The two forms of a cast, with so many levels left inside. -/
inductive Cast
  | as (n : Nat)
  | comma (n : Nat)

namespace Cast

def production : Cast → Parser Expression
  | as n => castExpression (level n)
  | comma n => convertExpression (level n)

/-- All that the cast needs stands behind its opening parenthesis. What else stands in the group is
passed over with its end. -/
def Complete (cast : Cast) (s : State) : Prop :=
  let behind : State := { s with cursor := s.cursor.advance.advance }
  match cast with
  | as n => ReadsAs n behind
  | comma n => ReadsComma n behind

end Cast

/-- If so it is taken to be, the cast that begins at a place is complete. -/
def CompleteIn (stretch : Stretch) (cast : Cast) (s : State) : Prop :=
  stretch.sound → opensCast s.cursor.tokens = true → cast.Complete s

abbrev DepthTriple (stretch : Stretch) (P : State → Prop) (p : Parser α) (Q : α → State → Prop)
    (E : State → Prop) : Prop :=
  GuardedTriple Cast.production (CompleteIn stretch) P p Q E

/-- From a cursor in `A` at depth `low` or deeper, the parser comes back to where it began, also
where it gives up. -/
def KeepsFrom (stretch : Stretch) (low : Nat) (A : Cursor → Prop) (p : Parser α) : Prop :=
  ∀ depth, low ≤ depth → DepthTriple stretch (fun s => Within stretch depth s ∧ A s.cursor) p
    (fun _ => Within stretch depth) (Within stretch depth)

abbrev Keeps (stretch : Stretch) (low : Nat) (p : Parser α) : Prop :=
  KeepsFrom stretch low (fun _ => True) p

/-- The parser goes into a group, or gives up before it. -/
def EntersFrom (stretch : Stretch) (low : Nat) (A : Cursor → Prop) (p : Parser α) : Prop :=
  ∀ depth, low ≤ depth → DepthTriple stretch (fun s => Within stretch depth s ∧ A s.cursor) p
    (fun _ => Within stretch (depth + 1)) (Within stretch depth)

/-- The parser goes out of a group in the stretch, also where it gives up. -/
def Leaves (stretch : Stretch) (low : Nat) (p : Parser α) : Prop :=
  ∀ depth, low ≤ depth → (stretch.grouped → depth ≠ 0) →
    DepthTriple stretch (Within stretch (depth + 1)) p (fun _ => Within stretch depth)
      (Within stretch depth)

/-- Outside of all groups no cursor is in a stretch that a group stands around. -/
theorem DepthTriple.of_deep {p : Parser α} {P E : State → Prop} {Q : α → State → Prop} [Stepwise p]
    (within : ∀ s, P s → Within stretch depth s)
    (holds : (stretch.grouped → depth ≠ 0) → DepthTriple stretch P p Q E) :
    DepthTriple stretch P p Q E := by
  by_cases deep : stretch.grouped → depth ≠ 0
  · exact holds deep
  · exact ⟨inferInstance, fun s start => absurd (within s start.1).1 deep⟩

theorem KeepsFrom.stepwise {A : Cursor → Prop} {p : Parser α} (keeps : KeepsFrom stretch low A p) :
    Stepwise p :=
  (keeps low (Nat.le_refl low)).stepwise

theorem EntersFrom.stepwise {A : Cursor → Prop} {p : Parser α}
    (enters : EntersFrom stretch low A p) : Stepwise p :=
  (enters low (Nat.le_refl low)).stepwise

theorem Leaves.stepwise {p : Parser α} (leaves : Leaves stretch low p) : Stepwise p :=
  (leaves (low + 1) (Nat.le_succ low) fun _ => Nat.succ_ne_zero low).stepwise

namespace KeepsFrom

variable {A : Cursor → Prop}

theorem always {p : Parser α} (keeps : Keeps stretch low p) : KeepsFrom stretch low A p :=
  fun depth deep => (keeps depth deep).weaken (fun _ start => ⟨start.1, trivial⟩)
    (fun _ _ => id) (fun _ => id)

/-- What holds at every depth holds further inside. -/
theorem deeper {p : Parser α} (keeps : Keeps stretch 0 p) : Keeps stretch low p :=
  fun depth _ => keeps depth (Nat.zero_le _)

theorem pure {a : α} : KeepsFrom stretch low A (pure a) := fun _ _ => .pure fun _ start => start.1

theorem giveUp : KeepsFrom stretch low A (giveUp : Parser α) :=
  fun _ _ => .giveUp fun _ start => start.1

theorem ofOption {a? : Option α} : KeepsFrom stretch low A (ofOption a?) := by
  cases a? with
  | none => exact giveUp
  | some a => exact pure

theorem bind {p : Parser α} {f : α → Parser β} (first : KeepsFrom stretch low A p)
    (rest : ∀ a, Keeps stretch low (f a)) : KeepsFrom stretch low A (p >>= f) := by
  intro depth deep
  refine (first depth deep).bind fun a => ?_
  exact (rest a depth deep).weaken (fun _ start => ⟨start, trivial⟩) (fun _ _ => id) (fun _ => id)

theorem looking {f : Cursor → α} : KeepsFrom stretch low A (Parser.look f) :=
  fun _ _ => .look fun _ start => start.1

/-- What was looked at is known of the cursor until it moves. -/
theorem look {f : Cursor → α} {g : α → Parser β}
    (rest : ∀ a, KeepsFrom stretch low (fun c => A c ∧ f c = a) (g a)) :
    KeepsFrom stretch low A (look f >>= g) := by
  intro depth deep
  refine .bind (Q := fun a s => Within stretch depth s ∧ A s.cursor ∧ f s.cursor = a)
    (.look fun s start => ⟨start.1, start.2, rfl⟩) fun a => rest a depth deep

theorem weaken {B : Cursor → Prop} {p : Parser α} (keeps : KeepsFrom stretch low B p)
    (before : ∀ c, A c → B c) : KeepsFrom stretch low A p :=
  fun depth deep => (keeps depth deep).weaken (fun _ start => ⟨start.1, before _ start.2⟩)
    (fun _ _ => id) (fun _ => id)

theorem attempt {p : Parser α} (keeps : KeepsFrom stretch low A p) :
    KeepsFrom stretch low A (attempt p) := fun depth deep => (keeps depth deep).attempt

theorem onlyWhen {condition : Bool} {p : Parser α}
    (keeps : condition = true → KeepsFrom stretch low A p) :
    KeepsFrom stretch low A (Parser.onlyIf condition p) := by
  cases condition with
  | false => exact pure
  | true => exact (keeps rfl).attempt

theorem onlyIf {condition : Bool} {p : Parser α} (keeps : KeepsFrom stretch low A p) :
    KeepsFrom stretch low A (onlyIf condition p) := onlyWhen fun _ => keeps

theorem map {f : α → β} {p : Parser α} (keeps : KeepsFrom stretch low A p) :
    KeepsFrom stretch low A (f <$> p) := by
  rw [← bind_pure_comp]
  exact keeps.bind fun _ => pure

theorem requiredIf {condition : Bool} {p : Parser α} (keeps : KeepsFrom stretch low A p) :
    KeepsFrom stretch low A (requiredIf condition p) := by
  cases condition with
  | false => exact pure
  | true => exact keeps.map

/-! Movements. -/

theorem advance (plain : ∀ c, A c → c.current.isParen = false)
    (before : low = 0 → ∀ c, A c → c.current.kind ≠ .keyword .from) :
    KeepsFrom stretch low A advance :=
  fun _ _ => .of (.move fun s start =>
    start.1.pass (plain _ start.2) fun none => before (by omega) _ start.2)

/-- A step over a token whose kind is known. -/
theorem advanceOver {k : TokenKind} (is : ∀ c, A c → c.current.kind = k)
    (plain : k.isPlain = true) : KeepsFrom stretch low A Parser.advance :=
  advance (fun c start => isParen_eq_false (is c start) plain)
    (fun _ c start => ne_from (is c start) plain)

theorem accept {q : Token → Bool} (plain : ∀ t, q t = true → t.isParen = false)
    (before : low = 0 → ∀ t, q t = true → t.kind ≠ .keyword .from) :
    KeepsFrom stretch low A (accept q) :=
  fun _ _ => .accept
    (fun s start found => start.1.pass (plain _ found) fun none => before (by omega) _ found)
    (fun _ start _ => start.1)

theorem acceptKeyword {k : Keyword} (before : low = 0 → k ≠ .from) :
    KeepsFrom stretch low A (acceptKeyword k) := by
  refine accept (fun t found => ?_) (fun none t found => ?_)
  · have kind : t.kind = .keyword k := Token.isKeyword_iff.1 found
    simp [Token.isParen, Token.isPunctuation, kind]
  · have kind : t.kind = .keyword k := Token.isKeyword_iff.1 found
    simpa [kind] using before none

theorem acceptPunctuation {p : Punctuation} (left : p ≠ .leftParen) (right : p ≠ .rightParen) :
    KeepsFrom stretch low A (acceptPunctuation p) := by
  refine accept (fun t found => ?_) (fun _ t found => ?_)
  · have kind : t.kind = .punctuation p := Token.isPunctuation_iff.1 found
    simp [Token.isParen, Token.isPunctuation, kind, left, right]
  · have kind : t.kind = .punctuation p := Token.isPunctuation_iff.1 found
    simp [kind]

theorem kind_of_isWord {word : String} {t : Token} (found : t.isWord word = true) :
    t.kind = .identifier := by
  simp only [Token.isWord, Bool.and_eq_true, beq_iff_eq] at found
  exact found.1

/-- A keyword that is not accepted leaves the cursor where it was. -/
theorem acceptKeywordElse {k : Keyword} {yes no : Parser β} (before : low = 0 → k ≠ .from)
    (accepted : Keeps stretch low yes) (refused : KeepsFrom stretch low A no) :
    KeepsFrom stretch low A (Parser.acceptKeyword k >>= fun found =>
      if found = true then yes else no) := by
  intro depth deep
  refine .bind (Q := fun found s => Within stretch depth s ∧ (found = false → A s.cursor))
    (.accept (fun s start found => ⟨?_, nofun⟩) fun s start _ => ⟨start.1, fun _ => start.2⟩)
    fun found => ?_
  · have kind : s.cursor.current.kind = .keyword k := Token.isKeyword_iff.1 found
    refine start.1.pass ?_ fun none => ?_
    · simp [Token.isParen, Token.isPunctuation, kind]
    · simpa [kind] using before (by omega)
  · cases found with
    | true =>
        exact (accepted depth deep).weaken (fun _ start => ⟨start.1, trivial⟩) (fun _ _ => id)
          (fun _ => id)
    | false =>
        exact (refused depth deep).weaken (fun _ start => ⟨start.1, start.2 rfl⟩) (fun _ _ => id)
          (fun _ => id)

theorem acceptWord {word : String} : KeepsFrom stretch low A (acceptWord word) := by
  refine accept (fun t found => ?_) (fun _ t found => ?_)
  · exact isParen_eq_false (kind_of_isWord found) rfl
  · simp [kind_of_isWord found]

theorem report {complaint : Complaint} : KeepsFrom stretch low A (report complaint) :=
  fun _ _ => .report fun _ _ start _ => start.1.report

theorem skipUntil {stop : Token → Bool}
    (stops : low = 0 → ∀ t : Token, t.kind = .keyword .from → stop t = true) :
    KeepsFrom stretch low A (skipUntil stop) :=
  fun _ _ => .of (.move fun _ start => start.1.skipUntil fun none => stops (by omega))

theorem skipGroup : KeepsFrom stretch 1 A skipGroup := by
  intro depth deep
  obtain ⟨outer, rfl⟩ : ∃ outer, depth = outer + 1 := ⟨depth - 1, by omega⟩
  exact .of (.move fun s start => start.1.skipGroup.1)

theorem skipParenthesized : KeepsFrom stretch low A skipParenthesized :=
  fun _ _ => .of (.move fun _ start => start.1.skipParenthesized)

/-! Complaints and recovery. -/

theorem reportMissing {expected : Expected} : KeepsFrom stretch low A (reportMissing expected) :=
  look fun _ => report

theorem reportSurplus {expected : Expected} : KeepsFrom stretch low A (reportSurplus expected) :=
  look fun _ => report

theorem missing {expected : Expected} :
    KeepsFrom stretch low A (missing expected : Parser α) := reportMissing.bind fun _ => giveUp

theorem requireKeyword {k : Keyword} (before : low = 0 → k ≠ .from) :
    KeepsFrom stretch low A (requireKeyword k) := by
  refine (acceptKeyword before).bind fun found => ?_
  split
  · exact pure
  · exact missing

theorem requirePunctuation {p : Punctuation} (left : p ≠ .leftParen) (right : p ≠ .rightParen) :
    KeepsFrom stretch low A (requirePunctuation p) := by
  refine (acceptPunctuation left right).bind fun found => ?_
  split
  · exact pure
  · exact missing

theorem succeeds {p : Parser Unit} (keeps : KeepsFrom stretch low A p) :
    KeepsFrom stretch low A (succeeds p) := keeps.attempt.bind fun _ => pure

theorem finishItem {ends : Token → Bool} {parsed : Bool}
    (stops : low = 0 → ∀ t : Token, t.kind = .keyword .from → ends t = true) :
    KeepsFrom stretch low A (finishItem ends parsed) := by
  refine look fun t => (onlyIf reportSurplus).bind fun _ => ?_
  exact (skipUntil stops).bind fun _ => acceptPunctuation nofun nofun

theorem endsClause_of_from {t : Token} (kind : t.kind = .keyword .from) : endsClause t = true := by
  simp [endsClause, kind, Keyword.endsClause]

theorem endsItem_of_from {t : Token} (kind : t.kind = .keyword .from) : endsItem t = true := by
  simp [endsItem, endsClause_of_from kind]

theorem finishClause {parsed : Bool} : KeepsFrom stretch low A (finishClause parsed) :=
  look fun _ => (onlyIf reportSurplus).bind fun _ =>
    skipUntil fun _ _ kind => endsClause_of_from kind

theorem tooDeep {ends : Token → Bool}
    (stops : low = 0 → ∀ t : Token, t.kind = .keyword .from → ends t = true) :
    KeepsFrom stretch low A (tooDeep ends : Parser α) :=
  report.bind fun _ => (skipUntil stops).bind fun _ => giveUp

/-! Repetition. -/

theorem iterate {step : β → Parser (β × Bool)} (round : ∀ b, Keeps stretch low (step b)) (b : β) :
    Keeps stretch low (iterate step b) := by
  intro depth deep
  refine (GuardedTriple.iterate (I := fun _ s => Within stretch depth s ∧ True)
    (fun b => ?_) b).weaken (fun _ => id) (fun _ _ ends => ends.1) (fun _ => id)
  exact (round b depth deep).weaken (fun _ => id) (fun _ _ ends => ⟨ends, trivial⟩) (fun _ => id)

theorem collect {step : Parser (Option α × Bool)} (round : Keeps stretch low step) :
    Keeps stretch low (collect step) := by
  intro depth deep
  refine (GuardedTriple.collect (I := fun s => Within stretch depth s ∧ True) ?_).weaken
    (fun _ => id) (fun _ _ ends => ends.1) (fun _ => id)
  exact (round depth deep).weaken (fun _ => id) (fun _ _ ends => ⟨ends, trivial⟩) (fun _ => id)

theorem chainLeft {operand : Parser α} {operator : Parser (Option ω)} {join : ω → α → α → α}
    (operands : Keeps stretch low operand) (operators : Keeps stretch low operator) :
    Keeps stretch low (chainLeft operand operator join) := by
  refine operands.bind fun first => iterate (fun left => ?_) first
  refine operators.bind fun op? => ?_
  cases op? with
  | none => exact pure
  | some op =>
      refine operands.attempt.bind fun right? => ?_
      cases right? with
      | none => exact pure
      | some right => exact pure

theorem chainRight {operand : Parser α} {operator : Parser (Option ω)} {join : α → ω → α → α}
    (operands : Keeps stretch low operand) (operators : Keeps stretch low operator) :
    Keeps stretch low (chainRight operand operator join) := by
  intro depth deep
  have plain {γ : Type} {p : Parser γ} (keeps : Keeps stretch low p) :
      DepthTriple stretch (Within stretch depth) p (fun _ => Within stretch depth)
        (Within stretch depth) :=
    (keeps depth deep).weaken (fun _ start => ⟨start, trivial⟩) (fun _ _ => id) (fun _ => id)
  exact (GuardedTriple.chainRight (plain operands) (plain operators)).weaken
    (fun _ start => start.1) (fun _ _ => id) (fun _ => id)

theorem commaList {ends : Token → Bool} {item : Parser α} (items : Keeps stretch low item)
    (stops : low = 0 → ∀ t : Token, t.kind = .keyword .from → ends t = true) :
    Keeps stretch low (commaList ends item) :=
  collect (items.attempt.bind fun _ => (finishItem stops).bind fun _ => pure)

/-! Groups. -/

theorem group {p : Parser α} {f : α → Parser β} (enters : EntersFrom stretch low A p)
    (rest : ∀ a, Leaves stretch low (f a)) : KeepsFrom stretch low A (p >>= f) := by
  intro depth deep
  have first := enters.stepwise
  have further (a : α) := (rest a).stepwise
  exact .of_deep (fun _ => And.left) fun out =>
    (enters depth deep).bind fun a => rest a depth deep out

/-- A group that may follow, and what else may. -/
theorem ifOpening {yes no : Parser β} (inside : Leaves stretch low yes)
    (outside : Keeps stretch low no) :
    KeepsFrom stretch low A (Parser.acceptPunctuation .leftParen >>= fun opens =>
      if opens = true then yes else no) := by
  intro depth deep
  have stepwise := inside.stepwise
  have other := outside.stepwise
  refine .of_deep (fun _ => And.left) fun out => .bind (Q := fun opens s => if opens = true
      then Within stretch (depth + 1) s
      else Within stretch depth s) (.accept (fun s start found => ?_) (fun s start _ => ?_)) ?_
  · exact start.1.enter (Token.isPunctuation_iff.1 found)
  · exact start.1
  · intro opens
    cases opens with
    | false =>
        exact (outside depth deep).weaken (fun _ start => ⟨start, trivial⟩) (fun _ _ => id)
          (fun _ => id)
    | true => exact inside depth deep out

end KeepsFrom

namespace EntersFrom

variable {A : Cursor → Prop}

theorem advance (opens : ∀ c, A c → c.current.kind = .punctuation .leftParen) :
    EntersFrom stretch low A advance :=
  fun _ _ => .of (.move fun _ start => start.1.enter (opens _ start.2))

/-- What is so behind an opening parenthesis is so where it has been required. -/
theorem requiredOpening {K : State → Prop} :
    DepthTriple stretch
      (fun s => Within stretch depth s ∧ (s.cursor.current.isPunctuation .leftParen = true →
        K { s with cursor := s.cursor.advance }))
      (Parser.requirePunctuation .leftParen) (fun _ s => Within stretch (depth + 1) s ∧ K s)
      (Within stretch depth) := by
  refine .bind (Q := fun opens s => if opens = true then Within stretch (depth + 1) s ∧ K s
    else Within stretch depth s) (.accept (fun s start found => ?_) (fun s start _ => ?_)) ?_
  · exact ⟨start.1.enter (Token.isPunctuation_iff.1 found), start.2 found⟩
  · exact start.1
  · intro opens
    cases opens with
    | true => exact .pure fun _ => id
    | false =>
        refine .bind (Q := fun _ => Within stretch depth) ?_ fun _ => .giveUp fun _ => id
        exact (KeepsFrom.reportMissing (A := fun _ => True) depth (Nat.le_refl depth)).weaken
          (fun _ start => ⟨start, trivial⟩) (fun _ _ => id) (fun _ => id)

theorem requirePunctuation : EntersFrom stretch low A (requirePunctuation .leftParen) :=
  fun _ _ => (requiredOpening (K := fun _ => True)).weaken
    (fun _ start => ⟨start.1, fun _ => trivial⟩) (fun _ _ ends => ends.1) (fun _ => id)

theorem after {p : Parser α} {f : α → Parser β} (first : KeepsFrom stretch low A p)
    (rest : ∀ a, EntersFrom stretch low (fun _ => True) (f a)) :
    EntersFrom stretch low A (p >>= f) := by
  intro depth deep
  refine (first depth deep).bind fun a => ?_
  exact (rest a depth deep).weaken (fun _ start => ⟨start, trivial⟩) (fun _ _ => id) (fun _ => id)

theorem map {p : Parser α} {f : α → β} (enters : EntersFrom stretch low A p) :
    EntersFrom stretch low A (p >>= fun a => pure (f a)) :=
  fun depth deep => (enters depth deep).bind fun _ => .pure fun _ => id

end EntersFrom

namespace Leaves

theorem bind {p : Parser α} {f : α → Parser β} (first : Leaves stretch low p)
    (rest : ∀ a, Keeps stretch low (f a)) : Leaves stretch low (p >>= f) := by
  intro depth deep out
  refine (first depth deep out).bind fun a => ?_
  exact (rest a depth deep).weaken (fun _ start => ⟨start, trivial⟩) (fun _ _ => id) (fun _ => id)

/-- Inside of a group nothing may give up, for the rest of the group has to be skipped. -/
theorem step {p : Parser α} [Total p] {f : α → Parser β} (first : Keeps stretch 1 p)
    (rest : ∀ a, Leaves stretch low (f a)) : Leaves stretch low (p >>= f) := by
  intro depth deep out
  refine .bind (.ofTotal ((first (depth + 1) (by omega)).weaken
    (fun _ start => ⟨start, trivial⟩) (fun _ _ => id) (fun _ => id))) fun a => rest a depth deep out

/-- Unless casts need not be complete. -/
theorem cast (unsound : ¬stretch.sound) {p : Parser α} {f : α → Parser β}
    (first : Keeps stretch 1 p) (rest : ∀ a, Leaves stretch low (f a)) :
    Leaves stretch low (p >>= f) := by
  intro depth deep out
  refine .bind ((first (depth + 1) (by omega)).weaken (fun _ start => ⟨start, trivial⟩)
    (fun _ _ => id) (fun _ ends => ends.deepen unsound out)) fun a => rest a depth deep out

theorem ifClosing {yes no : Parser β} (outside : Keeps stretch low yes)
    (inside : Leaves stretch low no) :
    Leaves stretch low (acceptPunctuation .rightParen >>= fun closes =>
      if closes = true then yes else no) := by
  intro depth deep out
  refine .bind (Q := fun closes s => if closes = true then Within stretch depth s
    else Within stretch (depth + 1) s) (.accept (fun s start found => ?_) (fun s start _ => ?_)) ?_
  · exact start.leave out (Token.isPunctuation_iff.1 found)
  · exact start
  · intro closes
    cases closes with
    | false => exact inside depth deep out
    | true =>
        exact (outside depth deep).weaken (fun _ start => ⟨start, trivial⟩) (fun _ _ => id)
          (fun _ => id)

theorem closeParen : Leaves stretch low closeParen := by
  refine ifClosing .pure (step ?_ fun _ => ?_)
  · exact .look fun t => .report
  · intro depth deep out
    refine .bind (Q := fun _ s => Within stretch (depth + 1) s ∧
      s.cursor.current.kind = .punctuation .rightParen)
      (.of (.move fun s start => start.skipGroup)) ?_
    intro _
    refine .bind (Q := fun _ => Within stretch depth) (.accept (fun s start _ => ?_)
      (fun s start unfound => ?_)) fun _ => .pure fun _ => id
    · exact start.1.leave out start.2
    · simp [Token.isPunctuation, start.2] at unfound

end Leaves

/-! Names that stand before a group. -/

namespace KeepsFrom

variable {A : Cursor → Prop}

theorem isParen_of_namesCast {t : Token} (named : t.namesCast = true) : t.isParen = false := by
  cases kind : t.kind <;>
    simp_all [Token.namesCast, Token.isPlainName, Token.isKeyword, Token.isParen,
      Token.isPunctuation]

theorem not_from_of_namesCast {t : Token} (named : t.namesCast = true) :
    t.kind ≠ .keyword .from := by
  intro kind
  simp [Token.namesCast, Token.isPlainName, Token.isKeyword, kind] at named

/-- A name and the group behind it. -/
theorem nameAndGroup {k : TokenKind} {f : Unit → Parser β}
    (is : ∀ c, A c → c.current.kind = k) (plain : k.isPlain = true)
    (opens : ∀ c, A c → (c.peek 1).isPunctuation .leftParen = true)
    (rest : KeepsFrom stretch low (fun c => c.current.kind = .punctuation .leftParen) (f ())) :
    KeepsFrom stretch low A (Parser.advance >>= f) := by
  intro depth deep
  refine .bind (Q := fun _ s => Within stretch depth s ∧
    s.cursor.current.kind = .punctuation .leftParen) (.of (.move fun s start => ⟨?_, ?_⟩))
    fun _ => rest depth deep
  · exact start.1.pass (isParen_eq_false (is _ start.2) plain) fun _ =>
      ne_from (is _ start.2) plain
  · simpa [start.1.current_advance, Token.isPunctuation] using opens _ start.2

/-- In a cast anything but the end of the group may be passed, and a group so opened is lost. -/
theorem advanceInCast (unsound : ¬stretch.sound)
    (inside : ∀ c, A c → c.current.kind ≠ .punctuation .rightParen) :
    KeepsFrom stretch 1 A Parser.advance := by
  refine fun depth deep => .of (.move fun s start => ?_)
  by_cases opens : s.cursor.current.kind = .punctuation .leftParen
  · exact (start.1.enter opens).deepen unsound start.1.1
  · refine start.1.pass ?_ fun none => by omega
    simp [Token.isParen, Token.isPunctuation, opens, inside _ start.2]

end KeepsFrom

end Parser

end QueryNames.Grammar
