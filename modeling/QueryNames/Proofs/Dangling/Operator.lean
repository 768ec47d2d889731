import QueryNames.Proofs.Dangling.Rules

/-!
What reads an operator behind an expression. Main statements: a chain of operators that misses its
right side at the end of input keeps the left one, and what has nothing to do there keeps what was
found before it.
-/

namespace QueryNames.Grammar.Parser

variable {x : Overhang}

/-- At an end of input the parser gives up, with one complaint of it. -/
class Misses (p : Parser α) : Prop where
  run (t : Token) : t.kind = .endOfInput → ∃ complaint,
    p ⟨⟨t, []⟩, []⟩ = (none, ⟨⟨t, []⟩, [⟨.grammatical complaint, t.location⟩]⟩)

/-- At an end of input the parser finds `a` and nothing wrong. -/
def Rests (p : Parser α) (a : α) : Prop :=
  ∀ t reported, t.kind = .endOfInput → p ⟨⟨t, []⟩, reported⟩ = (some a, ⟨⟨t, []⟩, reported⟩)

/-- At an end of input there is nothing to do. -/
class Idles (p : Parser α) : Prop where
  rests : ∃ a, Rests p a

instance Misses.bind (p : Parser α) (f : α → Parser β) [misses : Misses p] :
    Misses (p >>= f) where
  run t ends := by
    obtain ⟨complaint, run⟩ := misses.run t ends
    exact ⟨complaint, by rw [bind_apply, run]⟩

instance (operand : Parser α) (operator : Parser (Option ω)) (join : ω → α → α → α)
    [Misses operand] : Misses (chainLeft operand operator join) := by
  rw [chainLeft_eq]
  infer_instance

/-- What is missed at every end of input is so at the end of the expression. -/
instance (priority := low) Needs.ofMisses (p : Parser α) [misses : Misses p] : Needs x p where
  complains := by
    obtain ⟨complaint, run⟩ := misses.run x.stop x.isStop
    rw [Overhang.left, run]
    exact List.cons_ne_nil _ _

namespace Idles

instance (a : α) : Idles (pure a : Parser α) := ⟨a, fun _ _ _ => rfl⟩

theorem behind {p : Parser α} {f : α → Parser β} {a : α} (first : Rests p a) [rest : Idles (f a)] :
    Idles (p >>= f) := by
  obtain ⟨b, last⟩ := rest.rests
  exact ⟨b, fun t reported ends => by rw [bind_some (first t reported ends), last t reported ends]⟩

theorem iterate {step : β → Parser (β × Bool)} (rests : ∀ b, Rests (step b) (b, false)) (b : β) :
    Idles (iterate step b) :=
  ⟨b, fun t reported ends => iterate_stop (rests b t reported ends)⟩

instance (p : Parser α) (f : Option α → Parser β) [Idles (f none)] :
    Idles (onlyIf false p >>= f) :=
  behind (p := onlyIf false p) fun _ _ _ => rfl

instance (p q : Parser α) [Idles q] : Idles (if false = true then p else q) :=
  inferInstanceAs (Idles q)

instance (k : Keyword) (f : Bool → Parser α) [Idles (f false)] : Idles (acceptKeyword k >>= f) :=
  behind fun _ _ ends => acceptKeyword_absent ends nofun

end Idles

namespace Dangles

variable {n : Nat}

instance (priority := low) weaken (p : Parser α) [dangles : Dangles x n p] :
    Dangles x (n + 1) p where
  runs paired ahead := dangles.runs paired ahead.fewer
  advances := dangles.advances

instance (priority := low) ofSettles (p : Parser α) [settles : Settles x n p] : Dangles x n p where
  runs paired ahead := (settles.runs paired ahead).imp_right .inl
  advances := settles.advances

theorem spent_bind {p : Parser α} {f : α → Parser β} {a : α} {c d c' d' : Cursor}
    (run : p ⟨c, []⟩ = (some a, ⟨c', []⟩)) (run' : p ⟨d, []⟩ = (some a, ⟨d', []⟩))
    (rest : x.Spent (f a) c' d') : x.Spent (p >>= f) c d := by
  obtain ⟨last, b, complaint, hangs, next, next'⟩ := rest
  exact ⟨last, b, complaint, hangs, by rw [bind_some run, next], by rw [bind_some run', next']⟩

/-- Behind two runs that do the same. -/
theorem behind {p : Parser α} {f : α → Parser β} [rest : ∀ a, Dangles x 0 (f a)] {c d : Cursor}
    (same : x.Alike p c d) :
    Complained ((p >>= f) ⟨c, []⟩).2 ∨ x.Alike (p >>= f) c d ∨ x.Spent (p >>= f) c d := by
  obtain ⟨_ | a, c', d', run, run', paired'⟩ := same
  · exact .inr (.inl (alike_none run run' paired'))
  · rcases (rest a).runs paired' (.zero c') with complained | alike | spent
    · exact .inl (by rwa [bind_some run])
    · exact .inr (.inl (alike_bind run run' alike))
    · exact .inr (.inr (spent_bind run run' spent))

/-- Behind a parser that settles, whatever it finds. -/
instance settled (p : Parser α) (f : α → Parser β) [first : Settles x n p]
    [rest : ∀ a, Dangles x 0 (f a)] : Dangles x n (p >>= f) where
  runs {c d} paired ahead := by
    rcases first.runs paired ahead with complained | same
    · exact .inl (bind_complained (fun a => (rest a).advances) complained)
    · exact behind same
  advances := first.advances.bind fun a => (rest a).advances

/-- What follows has nothing to do at an end of input. -/
instance (priority := 500) bind (p : Parser α) (f : α → Parser β) [first : Dangles x n p]
    [rest : ∀ a, Dangles x 0 (f a)] [idles : ∀ a, Idles (f a)] : Dangles x n (p >>= f) where
  runs {c d} paired ahead := by
    rcases first.runs paired ahead with
      complained | same | ⟨last, a, complaint, hangs, run, run'⟩
    · exact .inl (bind_complained (fun a => (rest a).advances) complained)
    · exact behind same
    · obtain ⟨b, found⟩ := (idles a).rests
      refine .inr (.inr ⟨last, b, complaint, hangs, ?_, ?_⟩)
      · rw [bind_some run]
        exact found x.stop [] x.isStop
      · rw [bind_some run']
        exact found last _ hangs.isLast
  advances := first.advances.bind fun a => (rest a).advances

/-- The same, for what follows by cases on the result. -/
theorem next {p : Parser α} {f : α → Parser β} [Dangles x n p] (rest : ∀ a, Dangles x 0 (f a))
    (idles : ∀ a, Idles (f a)) : Dangles x n (p >>= f) := bind p f

/-- What comes to the end of the expression is found out behind it. -/
theorem closing {p : Parser α} {f : α → Parser β} [first : Tallies x p]
    [rest : ∀ a, Dangles x 0 (f a)] [∀ a, Needs x (f a)] [Answers p] : Dangles x n (p >>= f) where
  runs {c d} paired _ := by
    rcases first.runs paired with astray | same
    · exact .inl (Needs.bind_of_astray (fun a => (rest a).advances) astray)
    · exact behind same
  advances := first.advances.bind fun a => (rest a).advances

/-- Behind the expression the parser complains. -/
theorem ofNeeds {p : Parser α} [needs : Needs x p] (inside : Dangles x 1 p) : Dangles x 0 p where
  runs {c d} paired _ := by
    rcases paired.view with ⟨rfl, rfl⟩ | ⟨t, c', d', goesOn, rfl, rfl, rest⟩
    · exact .inl needs.complains
    · exact inside.runs paired (.step goesOn (.zero c'))
  advances := inside.advances

instance (p : Parser α) [dangles : Dangles x n p] : Dangles x n (attempt p) where
  runs paired ahead := by
    rcases dangles.runs paired ahead with
      complained | ⟨a?, c', d', run, run', paired'⟩ |
        ⟨last, a, complaint, hangs, run, run'⟩
    · exact .inl complained
    · exact .inr (.inl (alike (by rw [attempt, run]) (by rw [attempt, run']) paired'))
    · exact .inr (.inr ⟨last, some a, complaint, hangs, by rw [attempt, run],
        by rw [attempt, run']⟩)
  advances := dangles.advances.attempt

instance (condition : Prop) [Decidable condition] (p q : Parser α) [Dangles x n p]
    [Dangles x n q] : Dangles x n (if condition then p else q) := by
  split <;> infer_instance

instance (p q : Parser α) [Dangles x n p] : Dangles x n (if true = true then p else q) :=
  inferInstanceAs (Dangles x n p)

instance (p q : Parser α) [Dangles x n q] : Dangles x n (if false = true then p else q) :=
  inferInstanceAs (Dangles x n q)

instance (condition : Bool) (p : Parser α) [Dangles x n p] : Dangles x n (onlyIf condition p) := by
  cases condition with
  | false => exact inferInstanceAs (Dangles x n (pure none))
  | true => exact inferInstanceAs (Dangles x n (attempt p))

/-- What is seen is the same in both runs, and there are `k` more tokens where it is. -/
theorem looking {f : Cursor → Bool} {g : Bool → Parser α} {k : Nat}
    (agree : ∀ {c d}, x.Paired c d → f c = f d)
    (known : ∀ {c d}, x.Paired c d → f c = true → Ahead k c)
    [yes : Dangles x k (g true)] [no : Dangles x n (g false)] : Dangles x n (look f >>= g) where
  runs {c d} paired ahead := by
    have same := agree paired
    simp only [Overhang.Alike, Overhang.Spent, bind_apply, Parser.look, ← same]
    cases seen : f c with
    | true => exact yes.runs paired (known paired seen)
    | false => exact no.runs paired ahead
  advances := .bind .look fun b => by
    cases b with
    | true => exact yes.advances
    | false => exact no.advances

instance check (q : Token → Bool) [Rejects q] (g : Bool → Parser α) [Dangles x 1 (g true)]
    [Dangles x n (g false)] : Dangles x n (check q >>= g) :=
  looking (k := 1) (Rejects.same (q := q)) (Rejects.ahead (q := q))

/-- The next token may be the one behind the expression. -/
theorem peek {f : Token → Parser α} (edges : f x.stop = f x.next)
    (last : Dangles x 1 (f x.stop)) (inside : ∀ t, Dangles x 2 (f t)) :
    Dangles x 1 (peek 1 >>= f) where
  runs {c d} paired ahead := by
    obtain ⟨t, c', d', goesOn, rfl, rfl, rest, -⟩ := paired.inside ahead
    simp only [Overhang.Alike, Overhang.Spent, bind_peek_step]
    rcases rest.view with ⟨rfl, rfl⟩ | ⟨u, c'', d'', goesOn', rfl, rfl, -⟩
    · have same : f x.right.current = f x.left.current := edges.symm
      rw [same]
      exact last.runs paired ahead
    · exact (inside u).runs paired (.step goesOn (.step goesOn' (.zero c'')))
  advances := .bind .look fun t => (inside t).advances

/-- A word that may follow the expression, where it is missed at the end. -/
instance require (k : Keyword) (f : Unit → Parser α) [rest : Dangles x 0 (f ())] :
    Dangles x 0 (requireKeyword k >>= f) := by
  have advances : Advances (requireKeyword k >>= f) :=
    (Stepwise.advances (requireKeyword k)).bind fun _ => rest.advances
  have needs : Needs x (requireKeyword k >>= f) :=
    ⟨bind_complained (fun _ => rest.advances) Needs.complains⟩
  refine ofNeeds ⟨fun {c d} paired ahead => ?_, advances⟩
  obtain ⟨t, c', d', goesOn, rfl, rfl, rest', -⟩ := paired.inside ahead
  cases found : t.isKeyword k with
  | true =>
      have taken (e : Cursor) : requireKeyword k ⟨⟨t, e.tokens⟩, []⟩ = (some (), ⟨e, []⟩) := by
        rw [requireKeyword, acceptKeyword, bind_some (accept_present found),
          Cursor.advance_step goesOn]
        rfl
      simp only [Overhang.Alike, Overhang.Spent, bind_some (taken _)]
      exact rest.runs rest' (.zero c')
  | false =>
      apply Or.inl
      apply bind_complained fun _ => rest.advances
      rw [requireKeyword, acceptKeyword, bind_some (accept_absent found)]
      exact missing_complains.ends (P := fun _ => True) trivial

/-! Operators and chains. -/

/-- At the end of the expression the one run has nothing more to do, and the other may take the
operator and miss its right side. -/
theorem operator {table : TokenKind → Option ω} {f : Option ω → Parser α} {a : α}
    (ends : table .endOfInput = none) (joining : ∀ k, (table k).isSome = true → k.joins = true)
    (rests : Rests (f none) a)
    (misses : ∀ op t, t.kind = .endOfInput → ∃ complaint, f (some op) ⟨⟨t, []⟩, []⟩ =
      (some a, ⟨⟨t, []⟩, [⟨.grammatical complaint, t.location⟩]⟩))
    [none_ : Dangles x 0 (f none)] [some_ : ∀ op, Dangles x 0 (f (some op))] :
    Dangles x 0 (operator? table >>= f) where
  runs {c d} paired _ := by
    have absent {e : Cursor} (unknown : table e.current.kind = none) :
        operator? table ⟨e, []⟩ = (some none, ⟨e, []⟩) := by
      simp only [operator?, current, look, bind_apply, unknown]
      rfl
    have present {e : Cursor} {op : ω} (known : table e.current.kind = some op) :
        operator? table ⟨e, []⟩ = (some (some op), ⟨e.advance, []⟩) := by
      simp only [operator?, current, look, bind_apply, known]
      rfl
    simp only [Overhang.Alike, Overhang.Spent]
    rcases paired.view with ⟨rfl, rfl⟩ | ⟨t, c', d', goesOn, rfl, rfl, rest⟩
    · have atEnd : table x.left.current.kind = none := (congrArg table x.isStop).trans ends
      rw [bind_some (absent atEnd)]
      rcases joins : table x.right.current.kind with _ | op
      · rw [bind_some (absent joins)]
        exact none_.runs paired (.zero _)
      · obtain ⟨last, hangs⟩ : ∃ last, x.Hangs last :=
          x.exists_hangs (joining x.right.current.kind (by rw [joins, Option.isSome_some]))
        have read : x.right.advance = ⟨last, []⟩ := by
          rw [Overhang.right, hangs.behind]
          exact Cursor.advance_step x.goesOn_right ⟨last, []⟩
        obtain ⟨complaint, missed⟩ := misses op last hangs.isLast
        rw [bind_some (present joins), read]
        exact .inr (.inr ⟨last, a, complaint, hangs, rests x.stop [] x.isStop, missed⟩)
    · rcases known : table t.kind with _ | op
      · rw [bind_some (absent known), bind_some (absent known)]
        exact none_.runs paired (.zero _)
      · rw [bind_some (present known), bind_some (present known), Cursor.advance_step goesOn,
          Cursor.advance_step goesOn]
        exact (some_ op).runs rest (.zero c')
  advances := (Stepwise.advances (operator? table)).bind fun op? => by
    cases op? with
    | none => exact none_.advances
    | some op => exact (some_ op).advances

/-- Where the right side is missed, the left one is kept. -/
theorem misses_attempt {q : Parser β} [misses : Misses q] {g : Option β → Parser α} {a : α}
    (kept : g none = pure a) (t : Token) (ends : t.kind = .endOfInput) :
    ∃ complaint, (Parser.attempt q >>= g) ⟨⟨t, []⟩, []⟩ =
      (some a, ⟨⟨t, []⟩, [⟨.grammatical complaint, t.location⟩]⟩) := by
  obtain ⟨complaint, run⟩ := misses.run t ends
  refine ⟨complaint, ?_⟩
  have missed : Parser.attempt q ⟨⟨t, []⟩, []⟩ =
      (some none, ⟨⟨t, []⟩, [⟨.grammatical complaint, t.location⟩]⟩) := by
    rw [Parser.attempt, run]
  rw [bind_some missed, kept]
  rfl

/-- A round that has nothing to do at an end of input is the last one there. -/
theorem iterate {step : β → Parser (β × Bool)}
    (round : ∀ b, Dangles x 0 (step b)) (rests : ∀ b, Rests (step b) (b, false)) (b : β) :
    Dangles x 0 (iterate step b) where
  runs {c d} paired _ := by
    have last {b b' : β} {more : Bool} {s : State} {t : Token} {reported : List Diagnostic}
        (ends : t.kind = .endOfInput) (run : step b s = (some (b', more), ⟨⟨t, []⟩, reported⟩)) :
        Parser.iterate step b s = (some b', ⟨⟨t, []⟩, reported⟩) := by
      by_cases goesOn : more = true ∧ (State.mk ⟨t, []⟩ reported).remaining < s.remaining
      · rw [iterate_goesOn run goesOn]
        exact iterate_stop (rests b' t reported ends)
      · exact iterate_ends run goesOn
    rw [← or_assoc, or_right_comm]
    apply iterate_together (S := fun r r' => Complained r.2 ∨ ∃ last a complaint, x.Hangs last ∧
      r = (some a, ⟨x.left, []⟩) ∧
      r' = (some a, ⟨⟨last, []⟩, [⟨.grammatical complaint, last.location⟩]⟩)) _ b paired
    intro b c d paired
    rcases (round b).runs paired (.zero c) with
      complained | alike | ⟨t, ⟨b', more⟩, complaint, hangs, run, run'⟩
    · exact .inl (.inl (complained.onward (iterate_onward (fun b => (round b).advances) b _)))
    · exact .inr alike
    · exact .inl (.inr ⟨t, b', complaint, hangs, last x.isStop run, last hangs.isLast run'⟩)
  advances := .iterate (fun b => (round b).advances) b

theorem chainLeft {operand : Parser α} {table : TokenKind → Option ω} {join : ω → α → α → α}
    [Dangles x 0 operand] [Misses operand] (ends : table .endOfInput = none)
    (joining : ∀ k, (table k).isSome = true → k.joins = true) :
    Dangles x 0 (chainLeft operand (operator? table) join) := by
  have stops (left : α) :
      Rests (chainRound operand (operator? table) join left) (left, false) := by
    intro t reported isEnd
    have absent : operator? table ⟨⟨t, []⟩, reported⟩ = (some none, ⟨⟨t, []⟩, reported⟩) := by
      simp only [operator?, current, look, bind_apply, isEnd, ends]
      rfl
    rw [chainRound, bind_some absent]
    rfl
  have round (left : α) : Dangles x 0 (chainRound operand (operator? table) join left) := by
    refine @operator _ _ _ _ _ (left, false) ends joining (fun t reported _ => rfl)
      (fun op => misses_attempt rfl) inferInstance fun op => ?_
    apply next <;> rintro (_ | right) <;> infer_instance
  have rest (first : α) : Dangles x 0 (Parser.iterate (chainRound operand (operator? table) join)
      first) := iterate round stops first
  have idles (first : α) := Idles.iterate stops first
  rw [chainLeft_eq]
  infer_instance

end Dangles

end QueryNames.Grammar.Parser
