import QueryNames.Proofs.Blame.Rules
import QueryNames.Proofs.Dangling.Overhang
import QueryNames.Proofs.Grammar.Lockstep

/-!
A run over the tokens of an expression, and the same run where something follows them. Unless
something is wrong with the first, both find the same, either up to the end of the first, or to
their own end before what follows, or so that the second has read an operator there and missed its
right side. Main statements: the rules for what comes to its own end.
-/

namespace QueryNames.Grammar

variable {x : Overhang}

/-- Something is wrong, or the expression is at its end. -/
def Astray (x : Overhang) (s : State) : Prop := Complained s ∨ s.cursor = x.left

theorem Astray.onward {s s' : State} (astray : Astray x s) (onward : Onward s s') :
    Astray x s' := by
  rcases astray with complained | ends
  · exact .inl (complained.onward onward)
  · exact .inr ((onward.stays (by rw [ends]; rfl)).trans ends)

namespace Overhang

/-- From both places the parser finds the same, without a complaint, and ends at the same token. -/
def Alike (x : Overhang) (p : Parser α) (c d : Cursor) : Prop :=
  ∃ a? c' d', p ⟨c, []⟩ = (a?, ⟨c', []⟩) ∧ p ⟨d, []⟩ = (a?, ⟨d', []⟩) ∧ x.Paired c' d'

/-- The parser finds the same, but from the second place it has read an operator too, and misses
what is to follow. -/
def Spent (x : Overhang) (p : Parser α) (c d : Cursor) : Prop :=
  ∃ last a complaint, x.Hangs last ∧ p ⟨c, []⟩ = (some a, ⟨x.left, []⟩) ∧
    p ⟨d, []⟩ = (some a, ⟨⟨last, []⟩, [⟨.grammatical complaint, last.location⟩]⟩)

end Overhang

/-- Neither what follows an expression nor an end of input passes the test. -/
class Rejects (q : Token → Bool) : Prop where
  stop : ∀ x : Overhang, q x.stop = false
  next : ∀ x : Overhang, q x.next = false

namespace Rejects

variable {q : Token → Bool} [rejects : Rejects q] {c d : Cursor}

theorem same (paired : x.Paired c d) : q c.current = q d.current :=
  paired.current ((rejects.stop x).trans (rejects.next x).symm)

theorem ahead (paired : x.Paired c d) (found : q c.current = true) : Ahead 1 c := by
  rcases paired.view with ⟨rfl, rfl⟩ | ⟨t, c', d', goesOn, rfl, rfl, -⟩
  · have absent : q x.left.current = false := rejects.stop x
    rw [absent] at found
    cases found
  · exact .step goesOn (.zero c')

end Rejects

instance (p : Punctuation) [unset : Unset p.parts] : Rejects (·.isPunctuation p) :=
  ⟨fun x => x.stop_isPunctuation p, fun x => x.next_isPunctuation unset.eq⟩

instance (k : Keyword) [unset : Unset k.joins] : Rejects (·.isKeyword k) where
  stop x := by simp [Token.isKeyword, x.isStop]
  next x := by
    have other {j : Keyword} (joins : j.joins = true) :
        (TokenKind.keyword j == .keyword k) = false := by
      rw [beq_eq_false_iff_ne]
      rintro ⟨⟩
      rw [unset.eq] at joins
      cases joins
    exact TokenKind.forall_follows (p := fun kind => (kind == .keyword k) = false) (other rfl)
      (other rfl) rfl (fun _ => rfl) rfl rfl _ x.follows

instance (word : String) : Rejects (·.isWord word) where
  stop x := by simp [Token.isWord, x.isStop]
  next x := by
    simp [Token.isWord, x.noName]

instance (q r : Token → Bool) [Rejects q] [Rejects r] : Rejects fun t => q t || r t where
  stop x := by simp [Rejects.stop (q := q), Rejects.stop (q := r)]
  next x := by simp [Rejects.next (q := q), Rejects.next (q := r)]

instance (q r : Token → Bool) [Rejects q] : Rejects fun t => q t && r t where
  stop x := by simp [Rejects.stop (q := q)]
  next x := by simp [Rejects.next (q := q)]

namespace Parser

/-- The parser complains in the first run, comes to the end of the expression there, or does the
same in both runs. -/
class Tallies (x : Overhang) (p : Parser α) : Prop where
  runs {c d : Cursor} : x.Paired c d → Astray x (p ⟨c, []⟩).2 ∨ x.Alike p c d
  advances : Advances p := by exact Stepwise.advances _

/-- Where `n` more tokens are ahead, the parser complains in the first run or does the same in
both. -/
class Settles (x : Overhang) (n : Nat) (p : Parser α) : Prop where
  runs {c d : Cursor} : x.Paired c d → Ahead n c → Complained (p ⟨c, []⟩).2 ∨ x.Alike p c d
  advances : Advances p := by exact Stepwise.advances _

/-- Where `n` more tokens are ahead, the parser complains in the first run, does the same in both,
or reads an operator in the second and misses what is to follow. -/
class Dangles (x : Overhang) (n : Nat) (p : Parser α) : Prop where
  runs {c d : Cursor} : x.Paired c d → Ahead n c →
    Complained (p ⟨c, []⟩).2 ∨ x.Alike p c d ∨ x.Spent p c d
  advances : Advances p := by exact Stepwise.advances _

/-- At the end of the expression the parser complains. -/
class Needs (x : Overhang) (p : Parser α) : Prop where
  complains : Complained (p ⟨x.left, []⟩).2

section Alike

variable {p : Parser α} {a? : Option α} {c d c' d' : Cursor}

theorem alike (run : p ⟨c, []⟩ = (a?, ⟨c', []⟩)) (run' : p ⟨d, []⟩ = (a?, ⟨d', []⟩))
    (paired : x.Paired c' d') : x.Alike p c d :=
  ⟨a?, c', d', run, run', paired⟩

theorem alike_bind {f : α → Parser β} {a : α} (run : p ⟨c, []⟩ = (some a, ⟨c', []⟩))
    (run' : p ⟨d, []⟩ = (some a, ⟨d', []⟩)) (rest : x.Alike (f a) c' d') :
    x.Alike (p >>= f) c d := by
  obtain ⟨b?, c'', d'', last, last', paired⟩ := rest
  exact ⟨b?, c'', d'', by rw [bind_apply, run]; exact last, by rw [bind_apply, run']; exact last',
    paired⟩

theorem alike_none {f : α → Parser β} (run : p ⟨c, []⟩ = (none, ⟨c', []⟩))
    (run' : p ⟨d, []⟩ = (none, ⟨d', []⟩)) (paired : x.Paired c' d') : x.Alike (p >>= f) c d :=
  ⟨none, c', d', by rw [bind_apply, run], by rw [bind_apply, run'], paired⟩

/-- What is wrong stays so. -/
theorem bind_complained {f : α → Parser β} (advances : ∀ a, Advances (f a)) {s : State}
    (complained : Complained (p s).2) : Complained ((p >>= f) s).2 :=
  complained.onward (bind_onward advances s)

end Alike

instance : Lockstep x.Paired := ⟨x.behind.length, Overhang.Paired.remaining⟩

/-! What is missed at the end. -/

namespace Needs

/-- Where the first parser comes to the end, what follows is missed. -/
theorem bind_of_astray {p : Parser α} {f : α → Parser β} [answers : Answers p]
    [needs : ∀ a, Needs x (f a)] (advances : ∀ a, Advances (f a)) {s : State}
    (astray : Astray x (p s).2) : Complained ((p >>= f) s).2 := by
  rcases run : p s with ⟨_ | a, c, _ | ⟨d, ds⟩⟩ <;> rw [run] at astray
  · obtain ⟨d, member, -⟩ := answers.blames run
    cases member
  · exact bind_complained advances (by rw [run]; exact List.cons_ne_nil _ _)
  · rw [bind_some run]
    obtain rfl : c = x.left := astray.resolve_left fun complained => complained rfl
    exact (needs a).complains
  · exact bind_complained advances (by rw [run]; exact List.cons_ne_nil _ _)

theorem always {p : Parser α} (blames : ∀ s, (p s).2.Blames s.cursor.tokens) : Needs x p where
  complains := by
    obtain ⟨d, member, -⟩ := blames ⟨x.left, []⟩
    exact List.ne_nil_of_mem member

instance : Needs x (missing expected : Parser α) :=
  always fun s => bind_blames (reportMissing_blames expected s)

instance bind (p : Parser α) (f : α → Parser β) [first : Needs x p] [∀ a, Stepwise (f a)] :
    Needs x (p >>= f) :=
  ⟨bind_complained (fun a => Stepwise.advances (f a)) first.complains⟩

instance later (p : Parser α) (f : α → Parser β) [Answers p] [Stepwise p] [∀ a, Needs x (f a)]
    [∀ a, Stepwise (f a)] : Needs x (p >>= f) where
  complains := by
    have stays := ((Stepwise.advances p).onward ⟨x.left, []⟩).stays rfl
    exact bind_of_astray (fun a => Stepwise.advances (f a)) (.inr stays)

instance (condition : Prop) [Decidable condition] (p q : Parser α) [Needs x p] [Needs x q] :
    Needs x (if condition then p else q) := by
  split <;> infer_instance

theorem require {q : Token → Bool} (absent : q x.stop = false) {expected : Expected} :
    Needs x (do if ← accept q then pure () else missing expected) where
  complains := by
    have none_ : accept q ⟨x.left, []⟩ = (some false, ⟨x.left, []⟩) := accept_absent absent
    rw [bind_some none_]
    have missed : Needs x (missing expected : Parser Unit) := inferInstance
    exact missed.complains

instance (k : Keyword) : Needs x (requireKeyword k) :=
  require (by simp [Token.isKeyword, x.isStop])

instance (p : Punctuation) : Needs x (requirePunctuation p) := require (x.stop_isPunctuation p)

instance : Needs x closeParen := ⟨closeParen_complains.ends (x.stop_isPunctuation _)⟩

end Needs

/-! What is read to its own end. -/

namespace Settles

variable {n : Nat}

instance (priority := low) weaken (p : Parser α) [settles : Settles x n p] :
    Settles x (n + 1) p where
  runs paired ahead := settles.runs paired ahead.fewer
  advances := settles.advances

instance (a : α) : Settles x n (pure a : Parser α) where
  runs paired _ := .inr (alike rfl rfl paired)

instance : Settles x n (giveUp : Parser α) where
  runs paired _ := .inr (alike rfl rfl paired)

instance (a? : Option α) : Settles x n (ofOption a?) := by
  cases a? with
  | none => exact inferInstanceAs (Settles x n giveUp)
  | some a => exact inferInstanceAs (Settles x n (pure a))

theorem complains {p : Parser α} [Stepwise p] (complaint : ∀ s, Complained (p s).2) :
    Settles x n p where
  runs {c _} _ _ := .inl (complaint ⟨c, []⟩)

/-- Behind two runs that do the same. -/
theorem behind {p : Parser α} {f : α → Parser β} [rest : ∀ a, Settles x 0 (f a)] {c d : Cursor}
    (same : x.Alike p c d) : Complained ((p >>= f) ⟨c, []⟩).2 ∨ x.Alike (p >>= f) c d := by
  obtain ⟨_ | a, c', d', run, run', paired'⟩ := same
  · exact .inr (alike_none run run' paired')
  · rcases (rest a).runs paired' (.zero c') with complained | rest
    · exact .inl (by rwa [bind_some run])
    · exact .inr (alike_bind run run' rest)

instance bind (p : Parser α) (f : α → Parser β) [first : Settles x n p]
    [rest : ∀ a, Settles x 0 (f a)] : Settles x n (p >>= f) where
  runs {c d} paired ahead := by
    rcases first.runs paired ahead with complained | same
    · exact .inl (bind_complained (fun a => (rest a).advances) complained)
    · exact behind same
  advances := first.advances.bind fun a => (rest a).advances

/-- The same, for what follows by cases on the result. -/
theorem next {p : Parser α} {f : α → Parser β} [Settles x n p] (rest : ∀ a, Settles x 0 (f a)) :
    Settles x n (p >>= f) := bind p f

/-- What comes to the end of the expression is found out behind it. -/
instance (priority := low) closing (p : Parser α) (f : α → Parser β) [first : Tallies x p]
    [rest : ∀ a, Settles x 0 (f a)] [needs : ∀ a, Needs x (f a)] [Answers p] :
    Settles x n (p >>= f) where
  runs {c d} paired _ := by
    rcases first.runs paired with astray | same
    · exact .inl (Needs.bind_of_astray (fun a => (rest a).advances) astray)
    · exact behind same
  advances := first.advances.bind fun a => (rest a).advances

instance (p : Parser α) [settles : Settles x n p] : Settles x n (attempt p) where
  runs paired ahead := by
    rcases settles.runs paired ahead with complained | ⟨a?, c', d', run, run', paired'⟩
    · exact .inl complained
    · exact .inr (alike (by rw [attempt, run]) (by rw [attempt, run']) paired')
  advances := settles.advances.attempt

instance (condition : Prop) [Decidable condition] (p q : Parser α) [Settles x n p]
    [Settles x n q] : Settles x n (if condition then p else q) := by
  split <;> infer_instance

instance (p q : Parser α) [Settles x n p] : Settles x n (if true = true then p else q) :=
  inferInstanceAs (Settles x n p)

instance (p q : Parser α) [Settles x n q] : Settles x n (if false = true then p else q) :=
  inferInstanceAs (Settles x n q)

instance (p : Parser α) : Settles x n (onlyIf false p) :=
  inferInstanceAs (Settles x n (pure none))

instance (condition : Bool) (p : Parser α) [Settles x n p] : Settles x n (onlyIf condition p) := by
  cases condition with
  | false => infer_instance
  | true => exact inferInstanceAs (Settles x n (attempt p))

/-! Looking. -/

/-- Behind the expression the parser complains. -/
theorem ofNeeds {p : Parser α} [needs : Needs x p] (inside : Settles x 1 p) : Settles x 0 p where
  runs {c d} paired _ := by
    rcases paired.view with ⟨rfl, rfl⟩ | ⟨t, c', d', goesOn, rfl, rfl, rest⟩
    · exact .inl needs.complains
    · exact inside.runs paired (.step goesOn (.zero c'))
  advances := inside.advances

instance current (f : Token → Parser α) [rest : ∀ t, Settles x (n + 1) (f t)] :
    Settles x (n + 1) (current >>= f) where
  runs paired ahead := by
    obtain ⟨t, c', d', -, rfl, rfl, -, -⟩ := paired.inside ahead
    exact (rest t).runs paired ahead
  advances := .bind .look fun t => (rest t).advances

/-- The same, for what follows by cases on the token. -/
theorem token {f : Token → Parser α} (rest : ∀ t, Settles x 1 (f t)) :
    Settles x 1 (Parser.current >>= f) := current f

instance place (f : Location → Parser α) [rest : ∀ l, Settles x (n + 1) (f l)] :
    Settles x (n + 1) (place >>= f) where
  runs paired ahead := by
    obtain ⟨t, c', d', -, rfl, rfl, -, -⟩ := paired.inside ahead
    exact (rest t.location).runs paired ahead
  advances := .bind .look fun l => (rest l).advances

/-- The next token may be the one behind the expression. -/
theorem peek {f : Token → Parser α} (edges : f x.stop = f x.next)
    (last : Settles x 1 (f x.stop)) (inside : ∀ t, Settles x 2 (f t)) :
    Settles x 1 (peek 1 >>= f) where
  runs {c d} paired ahead := by
    obtain ⟨t, c', d', goesOn, rfl, rfl, rest, -⟩ := paired.inside ahead
    simp only [Overhang.Alike, bind_peek_step]
    rcases rest.view with ⟨rfl, rfl⟩ | ⟨u, c'', d'', goesOn', rfl, rfl, -⟩
    · have same : f x.right.current = f x.left.current := edges.symm
      rw [same]
      exact last.runs paired ahead
    · exact (inside u).runs paired (.step goesOn (.step goesOn' (.zero c'')))
  advances := .bind .look fun t => (inside t).advances

/-- What is seen is the same in both runs, and there are `k` more tokens where it is. -/
theorem looking {f : Cursor → Bool} {g : Bool → Parser α} {k : Nat}
    (agree : ∀ {c d}, x.Paired c d → f c = f d)
    (known : ∀ {c d}, x.Paired c d → f c = true → Ahead k c)
    [yes : Settles x k (g true)] [no : Settles x n (g false)] : Settles x n (look f >>= g) where
  runs {c d} paired ahead := by
    have same := agree paired
    simp only [Overhang.Alike, bind_apply, Parser.look, ← same]
    cases seen : f c with
    | true => exact yes.runs paired (known paired seen)
    | false => exact no.runs paired ahead
  advances := .bind .look fun b => by
    cases b with
    | true => exact yes.advances
    | false => exact no.advances

instance check (q : Token → Bool) [Rejects q] (g : Bool → Parser α) [Settles x 1 (g true)]
    [Settles x n (g false)] : Settles x n (check q >>= g) :=
  looking (k := 1) (Rejects.same (q := q)) (Rejects.ahead (q := q))

instance opensQuery (g : Bool → Parser α) [Settles x 2 (g true)] [Settles x n (g false)] :
    Settles x n (look Cursor.opensQuery >>= g) := by
  apply looking (k := 2) Overhang.Paired.opensQuery
  intro c d paired found
  rcases paired.view with ⟨rfl, rfl⟩ | ⟨t, c', d', goesOn, rfl, rfl, rest⟩
  · simp [Cursor.opensQuery, Overhang.left, x.stop_isPunctuation] at found
  · rcases rest.view with ⟨rfl, rfl⟩ | ⟨u, c'', d'', goesOn', rfl, rfl, -⟩
    · rw [Cursor.opensQuery, Cursor.peek_step, Bool.and_eq_true] at found
      simp [isSelectOrWith, Overhang.left, Token.isKeyword, x.isStop] at found
    · exact .step goesOn (.step goesOn' (.zero c''))

/-! Moving. -/

instance : Settles x 1 advance where
  runs paired ahead := .inr (alike rfl rfl (paired.advance ahead))

instance advance (f : Unit → Parser α) [rest : Settles x n (f ())] :
    Settles x (n + 1) (advance >>= f) where
  runs {c d} paired ahead := by
    obtain ⟨t, c', d', goesOn, rfl, rfl, rest', ahead'⟩ := paired.inside ahead
    simp only [Overhang.Alike, bind_apply, Parser.advance, Parser.move, Cursor.advance_step goesOn]
    exact rest.runs rest' ahead'
  advances := .bind (.move Cursor.advance_suffix) fun _ => rest.advances

instance (priority := low) (q : Token → Bool) : Settles x 1 (accept q) where
  runs paired ahead := by
    obtain ⟨t, c', d', goesOn, rfl, rfl, rest, -⟩ := paired.inside ahead
    cases found : q t with
    | true =>
        refine .inr (alike (accept_present found) (accept_present found) ?_)
        rwa [Cursor.advance_step goesOn, Cursor.advance_step goesOn]
    | false => exact .inr (alike (accept_absent found) (accept_absent found) paired)

instance (q : Token → Bool) [rejects : Rejects q] : Settles x 0 (accept q) where
  runs {c d} paired _ := by
    have same : q c.current = q d.current := rejects.same paired
    have moved := paired.advance_if (q := q) (rejects.stop x) (rejects.next x)
    cases found : q c.current with
    | true =>
        rw [if_pos found, if_pos (same ▸ found)] at moved
        exact .inr (alike (accept_present found) (accept_present (same ▸ found)) moved)
    | false => exact .inr (alike (accept_absent found) (accept_absent (same ▸ found)) paired)

/-! Words, signs and complaints. -/

instance (k : Keyword) [Rejects (·.isKeyword k)] : Settles x 0 (acceptKeyword k) :=
  inferInstanceAs (Settles x 0 (Parser.accept _))

instance (p : Punctuation) [Rejects (·.isPunctuation p)] : Settles x 0 (acceptPunctuation p) :=
  inferInstanceAs (Settles x 0 (Parser.accept _))

instance (priority := low) (p : Punctuation) : Settles x 1 (acceptPunctuation p) :=
  inferInstanceAs (Settles x 1 (Parser.accept _))

instance (word : String) : Settles x 0 (acceptWord word) :=
  inferInstanceAs (Settles x 0 (Parser.accept _))

instance (expected : Expected) : Settles x n (reportMissing expected) :=
  complains fun _ => (reportMissing_complains (E := Complained)).ends (P := fun _ => True) trivial

instance (expected : Expected) : Settles x n (missing expected : Parser α) := by
  unfold missing
  infer_instance

instance (k : Keyword) [Rejects (·.isKeyword k)] : Settles x 0 (requireKeyword k) := by
  unfold requireKeyword
  infer_instance

instance (p : Punctuation) : Settles x 0 (requirePunctuation p) := by
  have inside : Settles x 1 (requirePunctuation p) := by
    unfold requirePunctuation
    infer_instance
  exact ofNeeds inside

instance (p : Parser Unit) [Settles x n p] : Settles x n (succeeds p) := by
  unfold succeeds
  infer_instance

instance (ends : Token → Bool) : Settles x n (tooDeep ends : Parser α) :=
  complains fun _ => tooDeep_complains.ends trivial

instance : Settles x 0 closeParen where
  runs {c d} paired _ := by
    cases closes : c.current.isPunctuation .rightParen with
    | false => exact .inl (closeParen_complains.ends closes)
    | true =>
        rcases paired.view with ⟨rfl, rfl⟩ | ⟨t, c', d', goesOn, rfl, rfl, rest⟩
        · rw [Overhang.left, x.stop_isPunctuation] at closes
          cases closes
        · refine .inr (alike (Follows.closeParen_apply closes) (Follows.closeParen_apply closes) ?_)
          rwa [Cursor.advance_step goesOn, Cursor.advance_step goesOn]

/-! Names. -/

instance : Settles x 0 identifier where
  runs {c d} paired _ := by
    have stop : x.stop.kind ≠ .identifier := by
      rw [x.isStop]
      decide
    rcases paired.view with ⟨rfl, rfl⟩ | ⟨t, c', d', goesOn, rfl, rfl, rest⟩
    · have absent : identifier ⟨x.left, []⟩ = (none, ⟨x.left, []⟩) :=
        (identifier_apply _).trans (if_neg stop)
      have absent' : identifier ⟨x.right, []⟩ = (none, ⟨x.right, []⟩) :=
        (identifier_apply _).trans (if_neg x.noName)
      exact .inr (alike absent absent' paired)
    · simp only [Overhang.Alike, identifier_apply, Cursor.advance_step goesOn]
      split
      · exact .inr ⟨_, c', d', rfl, rfl, rest⟩
      · exact .inr ⟨_, _, _, rfl, rfl, paired⟩

/-- The ordering behind `WITHIN`, which is passed over, closes its group. -/
instance ordering (f : Option Unit → Parser α) [rest : ∀ u, Settles x 0 (f u)] :
    Settles x 0 (acceptWord "WITHIN" >>= fun within =>
      onlyIf within (acceptKeyword .group >>= fun _ => skipParenthesized) >>= f) where
  runs {c d} paired _ := by
    have tail (e : Cursor) : (acceptKeyword .group >>= fun _ => skipParenthesized) ⟨e, []⟩ =
        (some (),
          ⟨(if e.current.isKeyword .group then e.advance else e).skipParenthesized, []⟩) := by
      cases found : e.current.isKeyword .group with
      | true =>
          rw [acceptKeyword, bind_some (accept_present found)]
          rfl
      | false =>
          rw [acceptKeyword, bind_some (accept_absent found)]
          rfl
    have same : c.current.isWord "WITHIN" = d.current.isWord "WITHIN" :=
      Rejects.same (q := (·.isWord "WITHIN")) paired
    simp only [Overhang.Alike]
    cases found : c.current.isWord "WITHIN" with
    | false =>
        rw [acceptWord, bind_some (accept_absent found), bind_some (accept_absent (same ▸ found))]
        exact (rest none).runs paired (.zero c)
    | true =>
        have ahead := Rejects.ahead (q := (·.isWord "WITHIN")) paired found
        obtain ⟨word, c', d', goesOn, rfl, rfl, paired', -⟩ := paired.inside ahead
        rw [acceptWord, bind_some (accept_present found), bind_some (accept_present (same ▸ found)),
          Cursor.advance_step goesOn, Cursor.advance_step goesOn]
        simp only [onlyIf, if_true, bind_apply (attempt _), attempt, tail]
        refine (rest (some ())).runs ?_ (.zero _)
        have isWord : (word.isWord "WITHIN" || word.isKeyword .group) = true :=
          Bool.or_eq_true_iff.2 (.inl found)
        rw [← Rejects.same (q := (·.isKeyword .group)) paired']
        cases grouped : c'.current.isKeyword .group with
        | false => exact paired.skipOrdering paired' isWord
        | true =>
            have ahead' := Rejects.ahead (q := (·.isKeyword .group)) paired' grouped
            obtain ⟨group, c'', d'', goesOn', rfl, rfl, paired'', -⟩ := paired'.inside ahead'
            rw [if_pos rfl, if_pos rfl, Cursor.advance_step goesOn', Cursor.advance_step goesOn']
            exact paired'.skipOrdering paired'' (Bool.or_eq_true_iff.2 (.inr grouped))
  advances := (Stepwise.advances (acceptWord "WITHIN")).bind fun within =>
    (Stepwise.advances (onlyIf within (acceptKeyword .group >>= fun _ => skipParenthesized))).bind
      fun u => (rest u).advances

instance (step : Parser (Option α × Bool)) [round : Settles x 0 step] :
    Settles x 0 (collect step) where
  runs paired _ := collect_together round.advances Complained.onward
    (fun paired => round.runs paired (.zero _)) paired
  advances := .collect round.advances

end Settles

end Parser

end QueryNames.Grammar
