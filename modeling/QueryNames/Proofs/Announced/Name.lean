import QueryNames.Proofs.Announced.Rules
import QueryNames.Proofs.Grammar.Absent

/-!
Names and data types. Main statement: a name that begins at a token that was not announced has no
announced part, and the type behind `AS` is read past all that its word announced.
-/

namespace QueryNames.Grammar

open Grammar.Parser

variable {all seen : List Token}

instance (first : Identifier) (others : List Identifier) [head : Spared all first]
    [tail : Spared all others] : Spared all (⟨first, others⟩ : QualifiedName) where
  each := by
    have both := And.intro head.each tail.each
    simpa [names, QualifiedName.parts] using both

/-- The scan has come behind something of this sort. -/
structure Woken (all : List Token) (wake : Wake) (c : Cursor) : Prop where
  closed : Closed all
  split : ∃ front, front ++ c.tokens = all ∧ Wake.of front = wake

namespace Woken

variable {wake : Wake} {c : Cursor}

theorem among (woken : Woken all wake c) : Among all c := by
  obtain ⟨closed, front, split, -⟩ := woken
  exact ⟨closed, front, split⟩

theorem free (woken : Woken all wake c) (untaken : wake.takes c.current = false) : Free all c := by
  obtain ⟨closed, front, split, rfl⟩ := woken
  exact ⟨closed, front, split, untaken⟩

theorem pass (woken : Woken all wake c) (goesOn : c.isAtEnd = false) :
    Woken all (wake.after c.current) c.advance := by
  have step := Cursor.tokens_advance woken.among.inside goesOn
  obtain ⟨closed, front, split, rfl⟩ := woken
  refine ⟨closed, front ++ [c.current], ?_, Wake.of_concat front c.current⟩
  rw [List.append_assoc, List.singleton_append, ← step, split]

end Woken

theorem Free.announce {c : Cursor} (free : Free all c) (word : c.current.announces = true) :
    Woken all .word c.advance := by
  have goesOn : c.isAtEnd = false := by
    rcases Token.announces_eq_true.1 word with kind | kind <;>
      exact Cursor.isAtEnd_eq_false kind (by simp)
  obtain ⟨closed, front, split, -⟩ := free
  have passed := Woken.pass ⟨closed, front, split, rfl⟩ goesOn
  rwa [Wake.after_announces word] at passed

/-- Behind a part of an announced name, or at the second of two periods in it. -/
def InName (all : List Token) (c : Cursor) : Prop :=
  Woken all .part c ∨ (Woken all .periods c ∧ c.current.isPunctuation .period = true)

/-- What goes on with an announced name is a part of it. -/
theorem Woken.part {wake : Wake} {c : Cursor} (woken : Woken all wake c)
    (ready : wake = .word ∨ wake = .periods) (kind : c.current.kind = .identifier) :
    InName all c.advance := by
  have passed := woken.pass (Cursor.isAtEnd_eq_false kind (by decide))
  have part : wake.after c.current = .part := by
    rcases ready with rfl | rfl <;> simp [Wake.after, Wake.takes, kind]
  rw [part] at passed
  exact .inl passed

theorem InName.period {c : Cursor} (inName : InName all c)
    (kind : c.current.kind = .punctuation .period) : Woken all .periods c.advance := by
  have goesOn := Cursor.isAtEnd_eq_false kind (by decide)
  rcases inName with woken | ⟨woken, -⟩
  · simpa [Wake.after, Wake.takes, Token.isPunctuation, kind] using woken.pass goesOn
  · simpa [Wake.after, Wake.takes, Token.isPunctuation, kind] using woken.pass goesOn

theorem InName.free {c : Cursor} (inName : InName all c)
    (ends : c.current.isPunctuation .period = false) : Free all c := by
  rcases inName with woken | ⟨-, period⟩
  · exact woken.free ends
  · rw [ends] at period
    contradiction

set_option synthInstance.maxSize 512

namespace Parser.Spares

variable [Naming β] {stop : Place}

/-! Names that were not announced. -/

theorem naming {f : Option Identifier → Parser β} (seen' : List Token)
    (keeps : ∀ c, Seen seen c → c.isAtEnd = false → Seen seen' c.advance)
    [yes : ∀ name : { name : Identifier // Spared all name },
      Spares all seen' .free stop (f (some name.val))]
    [no : Spares all seen .free stop (f none)] :
    Spares all seen .free stop (attempt identifier >>= f) where
  runs := by
    rintro s ⟨free, ahead⟩
    rw [bind_apply, attempt, identifier_apply]
    by_cases kind : s.cursor.current.kind = .identifier
    · rw [if_pos kind]
      have silent : Silent s.cursor.current := .of_kind kind rfl (by decide)
      have spared : Spared all (Identifier.ofToken s.cursor.current) :=
        ⟨by simpa [names] using Free.unannounced free kind⟩
      exact (yes ⟨_, spared⟩).runs { s with cursor := s.cursor.advance }
        ⟨Free.pass free, keeps _ ahead silent.isEnd⟩
    · rw [if_neg kind]
      exact no.runs s ⟨free, ahead⟩

instance (priority := high) name (f : Option Identifier → Parser β)
    [∀ name : { name : Identifier // Spared all name },
      Spares all [] .free stop (f (some name.val))]
    [Spares all [] .free stop (f none)] : Spares all [] .free stop (attempt identifier >>= f) :=
  naming [] fun _ _ _ => trivial

instance (priority := high) nameSeen (t : Token) (f : Option Identifier → Parser β)
    [∀ name : { name : Identifier // Spared all name },
      Spares all seen .free stop (f (some name.val))]
    [Spares all (t :: seen) .free stop (f none)] :
    Spares all (t :: seen) .free stop (attempt identifier >>= f) := by
  apply naming seen
  rintro c ⟨rfl, ahead⟩ inside
  exact ahead inside

instance : Spares all [] .free .free qualifiedName := by
  unfold qualifiedName
  infer_instance

/-! Names behind a word that announces them. -/

theorem attempt_identifier (s : State) :
    attempt identifier s =
      if s.cursor.current.kind = .identifier then
        (some (some (.ofToken s.cursor.current)), { s with cursor := s.cursor.advance })
      else (some none, s) := by
  by_cases kind : s.cursor.current.kind = .identifier <;> simp [attempt, identifier_apply, kind]

theorem reportMissing_free {expected : Expected} {E : State → Prop} :
    Triple (fun s => Free all s.cursor) (reportMissing expected) (fun _ s => Free all s.cursor) E :=
  .bind (Q := fun _ s => Free all s.cursor) (.look fun _ => id)
    fun _ => .report fun _ _ free _ => free

theorem missing_free {expected : Expected} {Q : γ → State → Prop} :
    Triple (fun s => Free all s.cursor) (missing expected) Q (fun s => Free all s.cursor) :=
  reportMissing_free.bind fun _ => .giveUp fun _ => id

/-- One more period and what follows it. -/
theorem namePart_announced (origin : State) (inName : InName all origin.cursor) :
    Triple (· = origin) namePart
      (fun r s => if r.2 = true then InName all s.cursor ∧ s.remaining < origin.remaining
        else Free all s.cursor)
      (fun s => Free all s.cursor) := by
  have closed : Closed origin.cursor.tokens := inName.elim (·.among.inside) (·.1.among.inside)
  rw [namePart_eq]
  refine .bind (Q := fun found s => if found = true
    then Woken all .periods s.cursor ∧ s.remaining < origin.remaining else Free all s.cursor) ?_ ?_
  · refine .accept ?_ ?_
    · rintro s rfl period
      have kind : s.cursor.current.kind = .punctuation .period := Token.isPunctuation_iff.1 period
      have step := Cursor.tokens_advance closed (Cursor.isAtEnd_eq_false kind (by decide))
      have lengths := congrArg List.length step
      simp only [Cursor.tokens, List.length_cons] at lengths
      refine ⟨inName.period kind, ?_⟩
      simp only [State.remaining, Cursor.remaining]
      omega
    · rintro s rfl other
      exact inName.free other
  · rintro (_ | _)
    · exact .pure fun _ => id
    · refine .bind (Q := fun again s => (Woken all .periods s.cursor ∧
        s.remaining < origin.remaining) ∧ s.cursor.current.isPunctuation .period = again)
        (.look fun s start => ⟨start, rfl⟩) ?_
      rintro (_ | _)
      · refine .bind (Q := fun part? s => if part?.isSome = true
          then InName all s.cursor ∧ s.remaining < origin.remaining else Free all s.cursor) ?_ ?_
        · rintro s ⟨⟨woken, shorter⟩, once⟩
          rw [attempt_identifier]
          by_cases kind : s.cursor.current.kind = .identifier
          · rw [if_pos kind]
            refine ⟨woken.part (.inr rfl) kind, Nat.lt_of_le_of_lt ?_ shorter⟩
            have suffix := (Cursor.advance_suffix s.cursor).length_le
            simpa [Cursor.tokens, Cursor.remaining, State.remaining] using suffix
          · rw [if_neg kind]
            exact woken.free (by simpa [Wake.takes, kind] using once)
        · rintro (_ | part)
          · exact reportMissing_free.bind fun _ => .pure fun _ => id
          · exact .pure fun _ => id
      · exact .pure fun s found => ⟨.inr ⟨found.1.1, found.2⟩, found.1.2⟩

theorem qualifiedName_announced :
    Triple (fun s => Woken all .word s.cursor) qualifiedName (fun _ s => Free all s.cursor)
      (fun s => Free all s.cursor) := by
  intro s woken
  rw [qualifiedName_eq, bind_apply, attempt_identifier]
  by_cases kind : s.cursor.current.kind = .identifier
  · rw [if_pos kind]
    have parts := Triple.collectLast (I := fun s => InName all s.cursor)
      (Q := fun s => Free all s.cursor) (E := fun s => Free all s.cursor) namePart_announced
    exact (parts.bind fun _ => .pure fun _ => id) { s with cursor := s.cursor.advance }
      (woken.part (.inl rfl) kind)
  · rw [if_neg kind]
    exact missing_free s (woken.free (by simpa [Wake.takes] using kind))

/-! Data types. -/

instance : Spares all [] .free .anywhere typeArguments := of_among inferInstance

instance : Spares all [] .free .free dataType := by
  unfold dataType
  infer_instance

theorem requireAs_runs :
    Triple (fun s => Free all s.cursor) (requireKeyword .as) (fun _ s => Woken all .word s.cursor)
      (fun s => Free all s.cursor) := by
  refine .bind (Q := fun found s => if found = true then Woken all .word s.cursor
    else Free all s.cursor) (.accept (fun s free found => ?_) fun _ free _ => free) ?_
  · have kind : s.cursor.current.kind = .keyword .as := Token.isKeyword_iff.1 found
    exact free.announce (Token.announces_eq_true.2 (.inl kind))
  · rintro (_ | _)
    · exact missing_free
    · exact .pure fun _ => id

/-- A type behind the word that announces it. -/
instance castType (f : String → Parser β) [rest : ∀ type, Spares all [] .free stop (f type)] :
    Spares all [] .free stop (requireKeyword .as >>= fun _ => dataType >>= f) where
  runs := by
    have tail (name : QualifiedName) : Spares all [] .free stop ((do
        let base := ".".intercalate name.values
        if ← acceptPunctuation .leftParen then
          let arguments ← typeArguments
          closeParen
          return base ++ "(" ++ arguments ++ ")"
        else return base) >>= f) := inferInstance
    have ends (s : State) (free : Free all s.cursor) : stop.Holds all s :=
      Place.Holds.of_free free
    refine Triple.bind (requireAs_runs.weaken (fun _ => And.left) (fun _ _ => id) ends) fun _ => ?_
    rw [dataType, bind_assoc]
    exact Triple.bind (qualifiedName_announced.weaken (fun _ => id) (fun _ _ => id) ends)
      fun name => (tail name).behind

end Parser.Spares

end QueryNames.Grammar
