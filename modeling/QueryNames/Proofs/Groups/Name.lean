import QueryNames.Proofs.Groups.Rules

/-!
Names, data types and what is passed over. Main statements: where a word is passed over with what
follows it a parser comes back to the depth where it began, or leaves a group open; and so does one
that reads a data type, but for the groups that open inside of its arguments.
-/

namespace QueryNames.Grammar

variable {whole seen : List Token} {n m : Nat} {c d : Cursor}

theorem Skips.refl (c : Cursor) : Skips c c := ⟨[], 0, rfl, fun _ => rfl, .inl rfl⟩

/-- From behind a token that is no parenthesis. -/
theorem Skips.behind (closed : Closed c.tokens) [ordinary : Ordinary c.current]
    (skips : Skips c.advance d) : Skips c d := by
  obtain ⟨passed, left, split, number, ends⟩ := skips
  refine ⟨c.current :: passed, left, ?_, fun depth => ?_, ends⟩
  · rw [Cursor.tokens_advance closed ordinary.isEnd, ← split]
    rfl
  · rw [opened_plain ordinary.isParen]
    exact number depth

namespace Parser

/-! Words that are passed over with what follows. -/

/-- The parser complains, or it passes whole groups and those that it leaves open at the end. -/
def SkipsGroups (p : Parser α) : Prop :=
  ∀ s, Closed s.cursor.tokens → Complained (p s).2 ∨ Skips s.cursor (p s).2.cursor

namespace SkipsGroups

theorem skipParenthesized : SkipsGroups skipParenthesized :=
  fun _ closed => .inr (Cursor.skipParenthesized_skips closed)

theorem skipUntil (stop : Token → Bool) : SkipsGroups (skipUntil stop) :=
  fun _ closed => .inr (Cursor.skipUntil_skips stop closed)

theorem accept (q : Token → Bool) [only : OnlyOrdinary q] {f : Bool → Parser α}
    (rest : ∀ found, SkipsGroups (f found)) : SkipsGroups (Parser.accept q >>= f) := by
  intro s closed
  cases found : q s.cursor.current with
  | false =>
      rw [bind_some (accept_absent found)]
      exact rest false s closed
  | true =>
      have ordinary := only.ordinary _ found
      have behind : Closed s.cursor.advance.tokens :=
        closed.of_suffix (Cursor.advance_suffix _) (by simp)
      rw [bind_some (accept_present found)]
      exact (rest true { s with cursor := s.cursor.advance } behind).imp_right (.behind closed)

theorem behindWord (q : Token → Bool) [OnlyOrdinary q] {p : Parser Unit} (skips : SkipsGroups p) :
    SkipsGroups (behindWord q p) := by
  apply accept
  rintro (_ | _)
  · exact fun s _ => .inr (.refl s.cursor)
  · exact skips

end SkipsGroups

instance (q : Token → Bool) (p : Parser Unit) [Stepwise p] : Stepwise (behindWord q p) := by
  unfold behindWord
  infer_instance

instance (q : Token → Bool) (p : Parser Unit) : Total (behindWord q p) := by
  unfold behindWord
  infer_instance

instance : Stepwise tableHints := by
  unfold tableHints
  infer_instance

instance : Stepwise tableSample := inferInstanceAs (Stepwise (behindWord _ _))

instance : Stepwise groupOrdering := inferInstanceAs (Stepwise (behindWord _ _))

instance : Stepwise rowCounts := inferInstanceAs (Stepwise (behindWord _ _))

instance : Stepwise resultFormat := inferInstanceAs (Stepwise (behindWord _ _))

instance : Stepwise queryOptions := inferInstanceAs (Stepwise (behindWord _ _))

namespace PassedOver

variable {before : Parser α} {skip : Parser (Option Unit)}

theorem skips (passes : PassedOver before skip) : SkipsGroups skip := by
  cases passes with
  | hints =>
      intro s closed
      exact SkipsGroups.behindWord (fun t => t.isKeyword .with && _) .skipParenthesized s closed
  | sample | rows | format => exact .behindWord _ (.skipUntil _)
  | ordering => exact .behindWord _ (.accept (·.isKeyword .group) fun _ => .skipParenthesized)
  | options =>
      refine .behindWord _ fun s closed => ?_
      rw [check, bind_some (looks _ _)]
      split
      · exact SkipsGroups.skipParenthesized s closed
      · exact .inl (Triple.ends (P := fun _ => True) reportMissing_complains trivial)

theorem total (passes : PassedOver before skip) : Total skip := by
  cases passes with
  | hints => unfold tableHints; infer_instance
  | sample | ordering | rows | format | options => exact inferInstanceAs (Total (behindWord _ _))

/-- Behind what is read before, a group is left open or none. -/
theorem reaches (passes : PassedOver before skip) {a : α} (ahead : c.tokens <:+ whole)
    (reads : before ⟨c, []⟩ = (some a, ⟨d, []⟩)) (stands : Stands whole n d) :
    Reaches whole n skip ⟨d, []⟩ := by
  have := passes.total
  refine .of_run ?_
  rintro _ rfl
  obtain ⟨u?, s, run⟩ := Total.result (p := skip) ⟨d, []⟩
  obtain rfl : s = (skip ⟨d, []⟩).2 := by rw [run]
  refine ⟨u?, _, run, ?_⟩
  rcases passes.skips ⟨d, []⟩ stands.ended.closed with complained | skips
  · exact .inl (.inl complained)
  rcases stands.passOver skips with stands | ⟨ends, ⟨left, unclosed⟩, open_⟩
  · exact .inr stands
  · exact .inl (.inr ⟨.intro passes ahead reads ends unclosed, open_⟩)

end PassedOver

namespace Counts

/-! Names. -/

theorem naming {f : Option Identifier → Parser α} (seen' : List Token)
    (keeps : ∀ c, Seen seen c → c.isAtEnd = false → Seen seen' c.advance)
    [yes : ∀ name, Counts whole seen' n m (f (some name))] [no : Counts whole seen n m (f none)] :
    Counts whole seen n m (attempt identifier >>= f) where
  stepwise := by
    apply Stepwise.next
    rintro (_ | name)
    · exact no.stepwise
    · exact (yes name).stepwise
  runs s start := by
    rw [bind_apply, attempt, identifier_apply]
    by_cases is : s.cursor.current.kind = .identifier
    · rw [if_pos is]
      have ordinary : Ordinary s.cursor.current := .of_kind is rfl
      exact (yes _).runs { s with cursor := s.cursor.advance }
        ⟨start.1.pass ordinary.isEnd ordinary.isParen, keeps _ start.2 ordinary.isEnd⟩
    · rw [if_neg is]
      exact no.runs s start

instance name (f : Option Identifier → Parser α) [∀ name, Counts whole [] n m (f (some name))]
    [Counts whole [] n m (f none)] : Counts whole [] n m (attempt identifier >>= f) :=
  naming [] fun _ _ _ => trivial

instance nameSeen (t : Token) (f : Option Identifier → Parser α)
    [∀ name, Counts whole seen n m (f (some name))] [Counts whole (t :: seen) n m (f none)] :
    Counts whole (t :: seen) n m (attempt identifier >>= f) := by
  apply naming seen
  rintro c ⟨rfl, ahead⟩ inside
  exact ahead inside

instance : Counts whole [] n n (attempt identifier) := by
  have whole_ : Counts whole [] n n (attempt identifier >>= pure) := inferInstance
  rwa [bind_pure] at whole_

instance (expected : Expected) : Counts whole [] n n (requireIdentifier expected) := by
  unfold requireIdentifier
  infer_instance

instance (t : Token) [Opening t] : Counts whole [t] n n identifierList := by
  unfold identifierList
  infer_instance

instance : Counts whole [] n n columnNames := by
  unfold columnNames
  infer_instance

instance : Counts whole [] n n qualifiedName := by
  unfold qualifiedName
  infer_instance

/-! Data types. -/

/-- Behind `front` a group of arguments is passed, and no other inside of it unless that is one in a
data type. -/
def Listed (whole front : List Token) (n : Nat) (s : State) : Prop :=
  (∃ args, Counted whole (front ++ args) n s.cursor ∧ ∀ t ∈ args, t.isParen = false) ∨
    (GroupInType whole ∧ Stands whole n s.cursor)

theorem Listed.stands {front : List Token} {s : State} (listed : Listed whole front n s) :
    Stands whole n s.cursor := by
  rcases listed with ⟨args, counted, -⟩ | ⟨-, stands⟩
  · exact ⟨_, counted⟩
  · exact stands

section Arguments

variable {front : List Token} (inner : ∀ args opens rest, front ++ args ++ opens :: rest = whole →
  (∀ t ∈ args, t.isParen = false) → opens.isPunctuation .leftParen = true → GroupInType whole)

include inner

/-- An argument may be an opening parenthesis, but not a closing one. -/
theorem Listed.pass {s : State} (listed : Listed whole front n s)
    (inside : s.cursor.isAtEnd = false)
    (open_ : s.cursor.current.isPunctuation .rightParen = false) :
    Listed whole front n { s with cursor := s.cursor.advance } := by
  cases opens : s.cursor.current.isPunctuation .leftParen with
  | true =>
      have inType : GroupInType whole := by
        rcases listed with ⟨args, counted, plain⟩ | ⟨inType, -⟩
        · apply inner args s.cursor.current s.cursor.ahead _ plain opens
          exact counted.split
        · exact inType
      exact .inr ⟨inType, (listed.stands.enter opens).deepen inType⟩
  | false =>
      have plain : s.cursor.current.isParen = false := by simp [Token.isParen, opens, open_]
      rcases listed with ⟨args, counted, others⟩ | ⟨inType, stands⟩
      · have behind := counted.pass inside plain
        rw [List.append_assoc] at behind
        exact .inl ⟨_, behind, List.forall_mem_append.2 ⟨others, by simpa using plain⟩⟩
      · exact .inr ⟨inType, stands.pass inside plain⟩

theorem typeArguments_runs :
    Triple (Listed whole front n) typeArguments (fun _ => Listed whole front n) (Over whole) := by
  have argument : Triple (Listed whole front n) typeArgument (fun _ => Listed whole front n)
      (Over whole) := by
    apply Triple.bind (Q := fun t s => Listed whole front n s ∧ s.cursor.current = t)
    · exact .look fun s listed => ⟨listed, rfl⟩
    · intro t
      split
      · exact .pure fun _ => And.left
      · rename_i goesOn
        simp only [Bool.or_eq_true, not_or, Bool.not_eq_true] at goesOn
        apply Triple.bind (Q := fun _ => Listed whole front n)
        · apply Triple.move
          rintro s ⟨listed, rfl⟩
          exact listed.pass inner goesOn.1 goesOn.2
        · exact fun _ => .pure fun _ => id
  apply Triple.bind (Triple.collect (I := fun _ => Listed whole front n) (fun _ => argument) [])
  exact fun _ => .pure fun _ => id

end Arguments

/-- Where a data type follows, groups inside of its arguments are not counted. -/
theorem dataType_reaches {word : Token → Bool} {before : Parser α} {a : α}
    (precedes : PrecedesType word before) (ahead : c.tokens <:+ whole)
    (begins : word c.current = true) (reads : before ⟨c, []⟩ = (some a, ⟨d, []⟩))
    (stands : Stands whole n d) : Reaches whole n dataType ⟨d, []⟩ := by
  have name : Counts whole [] n n qualifiedName := inferInstance
  apply Reaches.bind (name.reaches stands trivial)
  intro name e named stands
  cases opens : e.current.isPunctuation .leftParen with
  | false =>
      have none_ (type : String) : Counts whole [] n n (pure type : Parser String) := inferInstance
      refine .next ?_ (accept_absent opens)
      exact (none_ _).reaches stands trivial
  | true =>
      refine .next ?_ (accept_present opens)
      obtain ⟨front, counted⟩ := stands.enter opens
      have inner (args : List Token) (another : Token) (rest : List Token)
          (split : front ++ args ++ another :: rest = whole)
          (plain : ∀ t ∈ args, t.isParen = false)
          (isOpening : another.isPunctuation .leftParen = true) : GroupInType whole := by
        rw [List.append_assoc, ← counted.split] at split
        exact .intro precedes ahead begins reads named opens (List.append_cancel_left split) plain
          isOpening
      have close (base arguments : String) : Counts whole [] (n + 1) n (do
          closeParen
          return base ++ "(" ++ arguments ++ ")") := inferInstance
      have group := (typeArguments_runs inner (n := n + 1)).bind fun arguments =>
        (close (".".intercalate name.values) arguments).runs.weaken
          (fun _ listed => ⟨listed.stands, trivial⟩) (fun _ _ => id) (fun _ => id)
      refine group.weaken ?_ (fun _ _ => id) (fun _ => id)
      rintro _ rfl
      exact .inl ⟨[], by simpa using counted, by simp⟩

end Counts

end Parser

end QueryNames.Grammar
