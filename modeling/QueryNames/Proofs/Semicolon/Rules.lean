import QueryNames.Proofs.Grammar.Lockstep
import QueryNames.Proofs.Semicolon.Edge

/-!
A run over tokens that end, and the same run where a semicolon and more follow them. Main
statements: the rules by which, unless something is wrong with the first, both find the same and
stay abreast.
-/

namespace QueryNames.Grammar

variable {edge : Edge}

/-- Neither token at the edge passes the test. -/
class Refuses (q : Token → Bool) : Prop where
  left : ∀ edge : Edge, q edge.left.current = false
  right : ∀ edge : Edge, q edge.right.current = false

/-- Both tokens at the edge pass the test. -/
class Halts (q : Token → Bool) : Prop where
  left : ∀ edge : Edge, q edge.left.current = true
  right : ∀ edge : Edge, q edge.right.current = true

instance (k : Keyword) : Refuses (·.isKeyword k) := ⟨fun _ => rfl, fun _ => rfl⟩

instance : Refuses (·.isPunctuation .comma) := ⟨fun _ => rfl, fun _ => rfl⟩

instance : Refuses (·.isPunctuation .leftParen) := ⟨fun _ => rfl, fun _ => rfl⟩

instance : Refuses (·.isPunctuation .rightParen) := ⟨fun _ => rfl, fun _ => rfl⟩

instance : Refuses (·.isPunctuation .period) := ⟨fun _ => rfl, fun _ => rfl⟩

instance (word : String) : Refuses (·.isWord word) := ⟨fun _ => rfl, fun _ => rfl⟩

instance (q r : Token → Bool) [Refuses q] [Refuses r] : Refuses fun t => q t || r t where
  left edge := by rw [Refuses.left (q := q), Refuses.left (q := r)]; rfl
  right edge := by rw [Refuses.right (q := q), Refuses.right (q := r)]; rfl

instance : Halts endsClause := ⟨fun _ => rfl, fun _ => rfl⟩

instance : Halts endsItem := ⟨fun _ => rfl, fun _ => rfl⟩

instance : Halts endsTable := ⟨fun _ => rfl, fun _ => rfl⟩

instance : Halts endsOrderItem := ⟨fun _ => rfl, fun _ => rfl⟩

instance (k : Keyword) : Halts fun t => endsClause t && !t.isKeyword k :=
  ⟨fun _ => rfl, fun _ => rfl⟩

namespace Parser

/-- The next token is the first of those behind. -/
theorem bind_peek_step {f : Token → Parser α} (t : Token) (c : Cursor) :
    (peek 1 >>= f) ⟨⟨t, c.tokens⟩, []⟩ = f c.current ⟨⟨t, c.tokens⟩, []⟩ := by
  rw [bind_apply, peek, look, Cursor.peek_step]

/-- From both places the parser finds the same, without a complaint, and ends abreast. -/
def Alike (edge : Edge) (p : Parser α) (c d : Cursor) : Prop :=
  ∃ a? c' d', p ⟨c, []⟩ = (a?, ⟨c', []⟩) ∧ p ⟨d, []⟩ = (a?, ⟨d', []⟩) ∧ Abreast edge c' d'

/-- Where `n` more tokens are ahead, the parser complains or does the same in both runs. -/
class Follows (edge : Edge) (n : Nat) (p : Parser α) : Prop where
  advances : Advances p
  runs {c d : Cursor} : Abreast edge c d → Ahead n c →
    Complained (p ⟨c, []⟩).2 ∨ Alike edge p c d

namespace Follows

variable {n : Nat}

theorem alike {p : Parser α} {a? : Option α} {c d c' d' : Cursor}
    (run : p ⟨c, []⟩ = (a?, ⟨c', []⟩)) (run' : p ⟨d, []⟩ = (a?, ⟨d', []⟩))
    (abreast : Abreast edge c' d') : Complained (p ⟨c, []⟩).2 ∨ Alike edge p c d :=
  .inr ⟨a?, c', d', run, run', abreast⟩

instance (priority := low) weaken (p : Parser α) [follows : Follows edge n p] :
    Follows edge (n + 1) p :=
  ⟨follows.advances, fun abreast ahead => follows.runs abreast ahead.fewer⟩

instance (a : α) : Follows edge n (pure a : Parser α) where
  advances := .pure
  runs abreast _ := alike rfl rfl abreast

instance : Follows edge n (giveUp : Parser α) where
  advances := .giveUp
  runs abreast _ := alike rfl rfl abreast

instance (a? : Option α) : Follows edge n (ofOption a?) := by
  cases a? with
  | none => exact inferInstanceAs (Follows edge n giveUp)
  | some a => exact inferInstanceAs (Follows edge n (pure a))

theorem complains {p : Parser α} (advances : Advances p)
    (complaint : Triple (fun _ => True) p (fun _ => Complained) Complained) : Follows edge n p :=
  ⟨advances, fun _ _ => .inl (complaint.ends trivial)⟩

instance bind (p : Parser α) (f : α → Parser β) [first : Follows edge n p]
    [rest : ∀ a, Follows edge 0 (f a)] : Follows edge n (p >>= f) where
  advances := first.advances.bind fun a => (rest a).advances
  runs {c d} abreast ahead := by
    rcases first.runs abreast ahead with complained | ⟨a?, c', d', run, run', abreast'⟩
    · exact .inl (complained.onward (bind_onward (fun a => (rest a).advances) _))
    · cases a? with
      | none =>
          have found : (p >>= f) ⟨c, []⟩ = (none, ⟨c', []⟩) := by rw [bind_apply, run]
          have found' : (p >>= f) ⟨d, []⟩ = (none, ⟨d', []⟩) := by rw [bind_apply, run']
          exact alike found found' abreast'
      | some a =>
          have tail := (rest a).runs abreast' (.zero c')
          simp only [Alike, bind_apply, run, run']
          exact tail

/-- The same, for what follows by cases on the result. -/
theorem next {p : Parser α} {f : α → Parser β} [Follows edge n p]
    (rest : ∀ a, Follows edge 0 (f a)) : Follows edge n (p >>= f) := bind p f

instance (f : α → β) (p : Parser α) [Follows edge n p] : Follows edge n (f <$> p) :=
  bind p fun a => pure (f a)

instance (p : Parser α) [follows : Follows edge n p] : Follows edge n (attempt p) where
  advances := follows.advances.attempt
  runs {c d} abreast ahead := by
    rcases follows.runs abreast ahead with complained | ⟨a?, c', d', run, run', abreast'⟩
    · exact .inl complained
    · have found : attempt p ⟨c, []⟩ = (some a?, ⟨c', []⟩) := by rw [attempt, run]
      have found' : attempt p ⟨d, []⟩ = (some a?, ⟨d', []⟩) := by rw [attempt, run']
      exact alike found found' abreast'

/-- Where the first parser gives up there is a complaint already. -/
theorem explained {p : Parser α} {f : Option α → Parser β} [first : Follows edge n p]
    (explains : Explains p) (absent : Advances (f none)) (rest : ∀ a, Follows edge 0 (f (some a))) :
    Follows edge n (attempt p >>= f) where
  advances := first.advances.attempt.bind fun a? => match a? with
    | none => absent
    | some a => (rest a).advances
  runs {c d} abreast ahead := by
    have advances (a? : Option α) : Advances (f a?) := by
      cases a? with
      | none => exact absent
      | some a => exact (rest a).advances
    rcases first.runs abreast ahead with complained | ⟨a?, c', d', run, run', abreast'⟩
    · exact .inl (complained.onward (bind_onward (p := attempt p) advances _))
    · cases a? with
      | none => exact absurd rfl (explains.of_none trivial run)
      | some a =>
          have tail := (rest a).runs abreast' (.zero c')
          simp only [Alike, bind_apply, attempt, run, run']
          exact tail

instance (condition : Prop) [Decidable condition] (p q : Parser α) [Follows edge n p]
    [Follows edge n q] : Follows edge n (if condition then p else q) := by
  split <;> infer_instance

instance (p q : Parser α) [Follows edge n p] : Follows edge n (if true = true then p else q) :=
  inferInstanceAs (Follows edge n p)

instance (p q : Parser α) [Follows edge n q] : Follows edge n (if false = true then p else q) :=
  inferInstanceAs (Follows edge n q)

instance (p : Parser α) : Follows edge n (onlyIf false p) :=
  inferInstanceAs (Follows edge n (pure none))

instance (condition : Bool) (p : Parser α) [Follows edge n p] :
    Follows edge n (onlyIf condition p) := by
  cases condition with
  | false => infer_instance
  | true => exact inferInstanceAs (Follows edge n (attempt p))

instance (condition : Bool) (p : Parser α) [Follows edge n p] :
    Follows edge n (requiredIf condition p) := by
  unfold requiredIf
  infer_instance

/-! Looking. -/

/-- At the edge the parser does what `q` does there. -/
theorem atEdge {p : Parser α} (q : Parser α) [rests : Follows edge 0 q]
    (left : p ⟨edge.left, []⟩ = q ⟨edge.left, []⟩) (right : p ⟨edge.right, []⟩ = q ⟨edge.right, []⟩)
    (inside : Follows edge 1 p) : Follows edge 0 p where
  advances := inside.advances
  runs {c d} abreast _ := by
    rcases abreast.view with ⟨rfl, rfl⟩ | ⟨t, c', d', goesOn, rfl, rfl, rest⟩
    · have found := rests.runs abreast (.zero _)
      simp only [Alike, left, right]
      exact found
    · exact inside.runs abreast (.step goesOn (.zero c'))

instance current (f : Token → Parser α) [rest : ∀ t, Follows edge (n + 1) (f t)] :
    Follows edge (n + 1) (current >>= f) where
  advances := Advances.look.bind fun t => (rest t).advances
  runs abreast ahead := by
    obtain ⟨t, c', d', goesOn, rfl, rfl, rest', -⟩ := abreast.inside ahead
    exact (rest t).runs abreast ahead

/-- The same, for what follows by cases on the token. -/
theorem token {f : Token → Parser α} (rest : ∀ t, Follows edge 1 (f t)) :
    Follows edge 1 (Parser.current >>= f) := current f

instance place (f : Location → Parser α) [rest : ∀ l, Follows edge (n + 1) (f l)] :
    Follows edge (n + 1) (place >>= f) where
  advances := Advances.look.bind fun l => (rest l).advances
  runs abreast ahead := by
    obtain ⟨t, c', d', goesOn, rfl, rfl, rest', -⟩ := abreast.inside ahead
    exact (rest t.location).runs abreast ahead

/-- Where the two tokens at the edge are not told from each other. -/
theorem seen {f : Token → Parser α} (edges : f edge.left.current = f edge.right.current)
    (rest : ∀ t, Follows edge n (f t)) : Follows edge n (Parser.current >>= f) where
  advances := Advances.look.bind fun t => (rest t).advances
  runs {c d} abreast ahead := by
    have same : f c.current = f d.current := abreast.current edges
    have found := (rest c.current).runs abreast ahead
    simp only [Alike, bind_apply, Parser.current, Parser.look, ← same]
    exact found

/-- The next token may be the one at the edge. -/
theorem peek {f : Token → Parser α} (edges : f edge.left.current = f edge.right.current)
    (last : Follows edge 1 (f edge.left.current)) (inside : ∀ t, Follows edge 2 (f t)) :
    Follows edge 1 (peek 1 >>= f) where
  advances := Advances.look.bind fun t => (inside t).advances
  runs {c d} abreast ahead := by
    obtain ⟨t, c', d', goesOn, rfl, rfl, rest, -⟩ := abreast.inside ahead
    simp only [Alike, bind_peek_step]
    rcases rest.view with ⟨rfl, rfl⟩ | ⟨u, c'', d'', goesOn', rfl, rfl, -⟩
    · rw [← edges]
      exact last.runs abreast ahead
    · exact (inside u).runs abreast (.step goesOn (.step goesOn' (.zero c'')))

/-- What is seen is the same in both runs, and there are `k` more tokens where it is. -/
theorem looking {f : Cursor → Bool} {g : Bool → Parser α} {k : Nat}
    (agree : ∀ {c d}, Abreast edge c d → f c = f d)
    (known : ∀ {c d}, Abreast edge c d → f c = true → Ahead k c)
    [yes : Follows edge k (g true)] [no : Follows edge n (g false)] :
    Follows edge n (look f >>= g) where
  advances := Advances.look.bind fun seen => match seen with
    | true => yes.advances
    | false => no.advances
  runs {c d} abreast ahead := by
    have same := agree abreast
    simp only [Alike, bind_apply, Parser.look, ← same]
    cases seen : f c with
    | true => exact yes.runs abreast (known abreast seen)
    | false => exact no.runs abreast ahead

instance check (q : Token → Bool) [Refuses q] (g : Bool → Parser α) [Follows edge 1 (g true)]
    [Follows edge n (g false)] : Follows edge n (check q >>= g) := by
  apply looking (k := 1)
  · intro c d abreast
    exact abreast.current ((Refuses.left edge).trans (Refuses.right edge).symm)
  · intro c d abreast found
    rcases abreast.view with ⟨rfl, rfl⟩ | ⟨t, c', d', goesOn, rfl, rfl, -⟩
    · rw [Refuses.left (q := q) edge] at found
      cases found
    · exact .step goesOn (.zero c')

instance opensQuery (g : Bool → Parser α) [Follows edge 2 (g true)] [Follows edge n (g false)] :
    Follows edge n (look Cursor.opensQuery >>= g) := by
  apply looking (k := 2) Abreast.opensQuery
  intro c d abreast found
  rcases abreast.view with ⟨rfl, rfl⟩ | ⟨t, c', d', goesOn, rfl, rfl, rest⟩
  · cases found
  · rcases rest.view with ⟨rfl, rfl⟩ | ⟨u, c'', d'', goesOn', rfl, rfl, -⟩
    · rw [Cursor.opensQuery, Cursor.peek_step, Bool.and_eq_true] at found
      cases found.2
    · exact .step goesOn (.step goesOn' (.zero c''))

instance opensQueryDeep (g : Bool → Parser α) [Follows edge 2 (g true)]
    [Follows edge n (g false)] : Follows edge n (look Cursor.opensQueryDeep >>= g) := by
  apply looking (k := 2) Abreast.opensQueryDeep
  intro c d abreast found
  rcases abreast.view with ⟨rfl, rfl⟩ | ⟨t, c', d', goesOn, rfl, rfl, rest⟩
  · cases found
  · rcases rest.view with ⟨rfl, rfl⟩ | ⟨u, c'', d'', goesOn', rfl, rfl, -⟩
    · rw [Cursor.opensQueryDeep, Bool.and_eq_true] at found
      obtain ⟨opens, selects⟩ := found
      simp only [Cursor.tokens, List.dropWhile_cons, opens] at selects
      cases selects
    · exact .step goesOn (.step goesOn' (.zero c''))

instance startsQuery (g : Bool → Parser α) [Follows edge 1 (g true)] [Follows edge n (g false)] :
    Follows edge n (look Cursor.startsQuery >>= g) := by
  apply looking (k := 1) Abreast.startsQuery
  intro c d abreast found
  rcases abreast.view with ⟨rfl, rfl⟩ | ⟨t, c', d', goesOn, rfl, rfl, -⟩
  · cases found
  · exact .step goesOn (.zero c')

/-! Moving. -/

instance : Follows edge 1 advance where
  advances := .move Cursor.advance_suffix
  runs abreast ahead := alike rfl rfl (abreast.advance ahead)

instance advance (f : Unit → Parser α) [rest : Follows edge n (f ())] :
    Follows edge (n + 1) (advance >>= f) where
  advances := Advances.bind (.move Cursor.advance_suffix) fun _ => rest.advances
  runs {c d} abreast ahead := by
    obtain ⟨t, c', d', goesOn, rfl, rfl, rest', ahead'⟩ := abreast.inside ahead
    simp only [Alike, bind_apply, Parser.advance, Parser.move, Cursor.advance_step goesOn]
    exact rest.runs rest' ahead'

theorem accept_apply (q : Token → Bool) (c : Cursor) :
    Parser.accept q ⟨c, []⟩ =
      (some (q c.current), ⟨if q c.current then c.advance else c, []⟩) := by
  rw [Parser.accept]
  cases q c.current <;> rfl

instance (q : Token → Bool) [Refuses q] : Follows edge 0 (accept q) where
  advances := .accept
  runs {c d} abreast _ := by
    have same : q c.current = q d.current :=
      abreast.current ((Refuses.left edge).trans (Refuses.right edge).symm)
    have found := accept_apply q d
    rw [← same] at found
    have moved := abreast.advance_if (q := q) (Refuses.left edge) (Refuses.right edge)
    rw [← same] at moved
    exact alike (accept_apply q c) found moved

instance accept (q : Token → Bool) (f : Bool → Parser α) [yes : Follows edge n (f true)]
    [no : Follows edge (n + 1) (f false)] : Follows edge (n + 1) (accept q >>= f) where
  advances := Advances.accept.bind fun found => match found with
    | true => yes.advances
    | false => no.advances
  runs {c d} abreast ahead := by
    obtain ⟨t, c', d', goesOn, rfl, rfl, rest, ahead'⟩ := abreast.inside ahead
    simp only [Alike, bind_apply, accept_apply, Cursor.advance_step goesOn]
    cases q t with
    | true => exact yes.runs rest ahead'
    | false => exact no.runs abreast ahead

theorem skipUntil {stop : Token → Bool} (halts : stop edge.right.current = true) :
    Follows edge 0 (skipUntil stop) where
  advances := .move (Cursor.skipUntil_suffix stop)
  runs abreast _ := alike rfl rfl (abreast.skipUntil halts)

instance (stop : Token → Bool) [Halts stop] : Follows edge 0 (Parser.skipUntil stop) :=
  skipUntil (Halts.right edge)

instance : Follows edge 0 skipParenthesized where
  advances := .move Cursor.skipParenthesized_suffix
  runs abreast _ := alike rfl rfl abreast.skipParenthesized

/-! Words, signs and complaints. -/

instance (k : Keyword) : Follows edge 0 (acceptKeyword k) :=
  inferInstanceAs (Follows edge 0 (Parser.accept _))

instance (k : Keyword) (f : Bool → Parser α) [Follows edge n (f true)]
    [Follows edge (n + 1) (f false)] : Follows edge (n + 1) (acceptKeyword k >>= f) :=
  accept _ f

instance (p : Punctuation) [Refuses (·.isPunctuation p)] : Follows edge 0 (acceptPunctuation p) :=
  inferInstanceAs (Follows edge 0 (Parser.accept _))

instance (p : Punctuation) (f : Bool → Parser α) [Follows edge n (f true)]
    [Follows edge (n + 1) (f false)] : Follows edge (n + 1) (acceptPunctuation p >>= f) :=
  accept _ f

instance (word : String) : Follows edge 0 (acceptWord word) :=
  inferInstanceAs (Follows edge 0 (Parser.accept _))

instance (expected : Expected) : Follows edge n (reportMissing expected) :=
  complains (Advances.look.bind fun _ => .report) reportMissing_complains

instance (expected : Expected) : Follows edge n (reportSurplus expected) :=
  complains (Advances.look.bind fun _ => .report)
    (.bind (Q := fun _ _ => True) (.look fun _ => id) fun _ => report_complains)

instance (expected : Expected) : Follows edge n (missing expected : Parser α) := by
  unfold missing
  infer_instance

instance (k : Keyword) : Follows edge 0 (requireKeyword k) := by
  unfold requireKeyword
  infer_instance

instance (p : Punctuation) [Refuses (·.isPunctuation p)] :
    Follows edge 0 (requirePunctuation p) := by
  unfold requirePunctuation
  infer_instance

instance (p : Parser Unit) [Follows edge n p] : Follows edge n (succeeds p) := by
  unfold succeeds
  infer_instance

instance (ends : Token → Bool) : Follows edge n (tooDeep ends : Parser α) :=
  complains tooDeep_advances tooDeep_complains

/-! Recovery. -/

theorem closeParen_apply {c : Cursor} (closes : c.current.isPunctuation .rightParen = true) :
    closeParen ⟨c, []⟩ = (some (), ⟨c.advance, []⟩) := by
  rw [closeParen, acceptPunctuation, bind_apply, accept_apply, closes]
  rfl

instance : Follows edge 0 closeParen where
  advances := closeParen_advances
  runs {c d} abreast _ := by
    have same : c.current.isPunctuation .rightParen = d.current.isPunctuation .rightParen :=
      abreast.current rfl
    cases closes : c.current.isPunctuation .rightParen with
    | false => exact .inl (closeParen_complains.ends closes)
    | true =>
        have moved := abreast.advance_if (q := (·.isPunctuation .rightParen)) rfl rfl
        simp only [← same, closes, if_true] at moved
        exact alike (closeParen_apply closes) (closeParen_apply (same ▸ closes)) moved

/-- A group that is skipped up to the edge is not closed there. -/
instance skipGroup (f : Unit → Parser α) [rest : ∀ u, Follows edge 0 (f u)] :
    Follows edge 0 (onlyIf true skipGroup >>= fun _ => closeParen >>= f) where
  advances := Advances.bind (Advances.attempt skipGroup_advances) fun _ =>
    closeParen_advances.bind fun u => (rest u).advances
  runs {c d} abreast _ := by
    have skipped (c : Cursor) : (onlyIf true Parser.skipGroup >>= fun _ => closeParen >>= f)
        ⟨c, []⟩ = (closeParen >>= f) ⟨c.skipGroup, []⟩ := rfl
    simp only [Alike, skipped]
    rcases Abreast.skipGroup abreast with kept | stops
    · have closing : Follows edge 0 (closeParen >>= f) := inferInstance
      exact closing.runs kept (.zero _)
    · have missed : Complained (closeParen ⟨c.skipGroup, []⟩).2 := by
        rw [stops]
        exact closeParen_complains.ends rfl
      exact .inl (missed.onward (bind_onward (fun u => (rest u).advances) _))

instance finishItem (ends : Token → Bool) [halts : Halts ends] (parsed : Bool) :
    Follows edge 0 (finishItem ends parsed) := by
  apply seen
  · rw [halts.left, halts.right]
  · infer_instance

instance (parsed : Bool) : Follows edge 0 (finishClause parsed) :=
  seen rfl inferInstance

/-! Repetition. -/

instance : Lockstep (Abreast edge) := ⟨edge.behind.length, Abreast.remaining⟩

instance (step : β → Parser (β × Bool)) (b : β) [round : ∀ b, Follows edge 0 (step b)] :
    Follows edge 0 (iterate step b) where
  advances := .iterate (fun b => (round b).advances) b
  runs abreast _ := by
    apply iterate_together (S := fun r _ => Complained r.2) _ b abreast
    intro b c d abreast
    rcases (round b).runs abreast (.zero c) with complained | alike
    · exact .inl (complained.onward (iterate_onward (fun b => (round b).advances) b _))
    · exact .inr alike

instance (step : Parser (Option α × Bool)) [round : Follows edge 0 step] :
    Follows edge 0 (collect step) where
  advances := .collect round.advances
  runs abreast _ := collect_together round.advances Complained.onward
    (fun abreast => round.runs abreast (.zero _)) abreast

instance (operand : Parser α) (operator : Parser (Option ω)) (join : ω → α → α → α)
    [Follows edge 0 operand] [Follows edge 0 operator] :
    Follows edge 0 (chainLeft operand operator join) := by
  have round (left : α) : Follows edge 0 (chainRound operand operator join left) := by
    apply next
    intro op?
    cases op? with
    | none => infer_instance
    | some op =>
        apply next
        intro right?
        cases right? <;> infer_instance
  rw [chainLeft_eq]
  infer_instance

instance (ends : Token → Bool) [Halts ends] (item : Parser α) [Follows edge 0 item] :
    Follows edge 0 (commaList ends item) := by
  unfold commaList
  infer_instance

instance (operand : Parser α) (operator : Parser (Option ω)) (join : α → ω → α → α)
    [first : Follows edge 0 operand] [between : Follows edge 0 operator] :
    Follows edge 0 (chainRight operand operator join) where
  advances := .chainRight first.advances between.advances
  runs abreast _ := chainRight_together first.advances between.advances Complained.onward
    (fun abreast => first.runs abreast (.zero _)) (fun abreast => between.runs abreast (.zero _))
    abreast

/-! Names. -/

instance : Follows edge 0 identifier where
  advances := identifier_advances
  runs {c d} abreast _ := by
    rcases abreast.view with ⟨rfl, rfl⟩ | ⟨t, c', d', goesOn, rfl, rfl, rest⟩
    · exact alike rfl rfl abreast
    · simp only [Alike, identifier_apply, Cursor.advance_step goesOn]
      split
      · exact .inr ⟨_, c', d', rfl, rfl, rest⟩
      · exact .inr ⟨_, _, _, rfl, rfl, abreast⟩

/-- Behind a name there is one token less ahead. -/
instance name (f : Option Identifier → Parser α) [yes : ∀ name, Follows edge n (f (some name))]
    [no : Follows edge (n + 1) (f none)] : Follows edge (n + 1) (attempt identifier >>= f) where
  advances := identifier_advances.attempt.bind fun name? =>
    match name? with
    | some name => (yes name).advances
    | none => no.advances
  runs {c d} abreast ahead := by
    obtain ⟨t, c', d', goesOn, rfl, rfl, rest, ahead'⟩ := abreast.inside ahead
    simp only [Alike, bind_apply, attempt, identifier_apply, Cursor.advance_step goesOn]
    split
    · exact (yes (.ofToken t)).runs rest ahead'
    · exact no.runs abreast ahead

instance (expected : Expected) : Follows edge 0 (requireIdentifier expected) := by
  apply next
  intro name?
  cases name? <;> infer_instance

instance : Follows edge 0 partBehind := by
  apply next
  intro part?
  cases part? <;> infer_instance

instance : Follows edge 0 namePart := by
  rw [namePart_eq]
  infer_instance

instance : Follows edge 0 qualifiedName := by
  rw [qualifiedName_eq]
  apply next
  intro first?
  cases first? <;> infer_instance

instance : Follows edge 1 identifierList := by
  unfold identifierList
  infer_instance

instance : Follows edge 0 columnNames := by
  unfold columnNames
  infer_instance

end Follows

end Parser

end QueryNames.Grammar
