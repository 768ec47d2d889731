import QueryNames.Proofs.Parallel.Enclosed

/-!
Two queries in parentheses with a set operator between them. Main statements: a query that is read
without a complaint closes no group that it has not opened, and so the second query in the longer
text hides nothing of the first.
-/

namespace QueryNames

/-- The keywords by which a set operator is written. -/
def SetOperator.keywords : SetOperator → List Keyword
  | .union => [.union]
  | .unionAll => [.union, .all]
  | .except => [.except]
  | .intersect => [.intersect]

namespace Grammar

/-- Parentheses close no more groups than `depth` and those that are opened before them. -/
def nests (depth : Nat) : List Token → Bool
  | [] => true
  | t :: ts =>
      if t.isPunctuation .leftParen then nests (depth + 1) ts
      else if t.isPunctuation .rightParen then
        match depth with
        | 0 => false
        | outer + 1 => nests outer ts
      else nests depth ts

/-- Tokens that close a group around them stand in a stretch up to there. -/
theorem Ended.inside {ts : List Token} (ended : Ended ts) {depth : Nat}
    (closes : nests depth ts = false) :
    ∃ stretch : Stretch, stretch.grouped ∧ ¬stretch.sound ∧ Inside stretch (depth + 1) ts := by
  induction ended generalizing depth with
  | last ends => simp [nests, Token.isPunctuation, ends] at closes
  | @next t ts goesOn rest ih =>
      unfold nests at closes
      split at closes
      · rename_i opening
        have kind : t.kind = .punctuation .leftParen :=
          Token.isPunctuation_iff.1 opening
        obtain ⟨stretch, grouped, unsound, inside⟩ := ih closes
        exact ⟨stretch, grouped, unsound, .opening kind inside⟩
      · rename_i noOpening
        split at closes
        · rename_i closing
          have kind : t.kind = .punctuation .rightParen :=
            Token.isPunctuation_iff.1 closing
          cases depth with
          | zero =>
              obtain ⟨first, behind, rfl⟩ := List.exists_cons_of_ne_nil rest.ne_nil
              let stretch : Stretch := ⟨False, True, first, behind, absurd trivial, rest.closed⟩
              exact ⟨stretch, trivial, id, .closing kind .last⟩
          | succ outer =>
              obtain ⟨stretch, grouped, unsound, inside⟩ := ih closes
              exact ⟨stretch, grouped, unsound, .closing kind inside⟩
        · rename_i noClosing
          obtain ⟨stretch, grouped, unsound, inside⟩ := ih closes
          have outside (zero : depth + 1 = 0) : endsItem t = false := absurd zero depth.succ_ne_zero
          refine ⟨stretch, grouped, unsound, .other ?_ ?_ outside inside⟩
          · simp [Token.isParen, noOpening, noClosing]
          · simp [Token.isEnd, goesOn]

namespace Inside

variable {stretch : Stretch} {depth : Nat} {ts : List Token}

/-- Where no parenthesis is left there is no group. -/
theorem depth_eq_zero (inside : Inside stretch depth ts) (idle : Idle ts) : depth = 0 := by
  have never {p : Punctuation} {t : Token} {ts : List Token} (kind : t.kind = .punctuation p)
      (idle : Idle (t :: ts)) : p = .semicolon := by
    rcases idle t List.mem_cons_self with same | same <;> rw [kind] at same
    · exact TokenKind.punctuation.inj same
    · cases same
  induction inside with
  | last => rfl
  | opening kind _ _ => cases never kind idle
  | closing kind _ _ => cases never kind idle
  | other _ _ _ _ ih => exact ih fun t member => idle t (List.mem_cons_of_mem _ member)

theorem behind_semicolons {front : List Token} (inside : Inside stretch (depth + 1) (front ++ ts))
    (semicolons : ∀ t ∈ front, t.kind = .punctuation .semicolon) :
    Inside stretch (depth + 1) ts := by
  induction front with
  | nil => exact inside
  | cons t front ih =>
      obtain ⟨kind, others⟩ := List.forall_mem_cons.1 semicolons
      refine ih (Inside.pass (fun _ => Nat.succ_ne_zero depth) inside ?_ nofun) others
      exact isParen_eq_false kind rfl

end Inside

namespace Parser

/-- A query that is read without a complaint closes no group around it. -/
theorem Alone.nests {ts : List Token} {query : Query} (alone : Alone ts query) (ended : Ended ts) :
    nests 0 ts = true := by
  apply eq_true_of_ne_false
  intro closes
  obtain ⟨stretch, grouped, unsound, inside⟩ := ended.inside closes
  obtain ⟨front, c₁, c₂, rfl, semicolons, -, reads, idle⟩ := alone
  have start : Within stretch 1 ⟨c₁, []⟩ :=
    .of_inside (fun _ => Nat.one_ne_zero) (inside.behind_semicolons semicolons)
  have kept : Within stretch 1 ⟨c₂, []⟩ :=
    ((levelKeeps nestingLimit).query 1 (Nat.le_refl 1)).holds.of_result
      ⟨⟨start, trivial⟩, fun _ _ _ _ sound => absurd sound unsound⟩ reads
  exact kept.elim fun _ deep inside => deep grouped (inside.depth_eq_zero idle)

/-- A set operator that is there is passed. -/
theorem setOperator?_present {operator : SetOperator} {first opening : Token}
    {more ts : List Token} {reported : List Diagnostic}
    (spells : (first :: more).map (·.kind) = operator.keywords.map .keyword)
    (opens : opening.kind = .punctuation .leftParen) :
    setOperator? ⟨⟨first, more ++ opening :: ts⟩, reported⟩ =
      (some (some operator), ⟨⟨opening, ts⟩, reported⟩) := by
  have accepts {k : Keyword} {t : Token} {ts : List Token} (kind : t.kind = .keyword k)
      (u : Token) :
      acceptKeyword k ⟨⟨t, u :: ts⟩, reported⟩ = (some true, ⟨⟨u, ts⟩, reported⟩) := by
    rw [acceptKeyword, accept_present (by simp [Token.isKeyword, kind])]
    simp [Cursor.advance, Cursor.isAtEnd, Token.isEnd, kind]
  have refuses (k : Keyword) {t : Token} {ts : List Token} {kind : TokenKind} (is : t.kind = kind)
      (other : kind ≠ .keyword k) :
      acceptKeyword k ⟨⟨t, ts⟩, reported⟩ = (some false, ⟨⟨t, ts⟩, reported⟩) :=
    acceptKeyword_absent is other
  cases operator with
  | union =>
      obtain ⟨kind, rfl⟩ : first.kind = .keyword .union ∧ more = [] := by
        simpa [SetOperator.keywords] using spells
      rw [setOperator?, List.nil_append, bind_some (accepts kind opening), if_pos rfl,
        bind_some (refuses .all opens (by decide))]
      rfl
  | unionAll =>
      obtain ⟨kind, all, rfl, isAll⟩ :
          first.kind = .keyword .union ∧ ∃ all, more = [all] ∧ all.kind = .keyword .all := by
        simpa [SetOperator.keywords, List.map_eq_singleton_iff] using spells
      rw [setOperator?, List.singleton_append, bind_some (accepts kind all), if_pos rfl,
        bind_some (accepts isAll opening)]
      rfl
  | except =>
      obtain ⟨kind, rfl⟩ : first.kind = .keyword .except ∧ more = [] := by
        simpa [SetOperator.keywords] using spells
      rw [setOperator?, bind_some (refuses .union kind (by decide)), if_neg Bool.false_ne_true,
        List.nil_append, bind_some (accepts kind opening)]
      rfl
  | intersect =>
      obtain ⟨kind, rfl⟩ : first.kind = .keyword .intersect ∧ more = [] := by
        simpa [SetOperator.keywords] using spells
      rw [setOperator?, bind_some (refuses .union kind (by decide)), if_neg Bool.false_ne_true,
        bind_some (refuses .except kind (by decide)), if_neg Bool.false_ne_true,
        List.nil_append, bind_some (accepts kind opening)]
      rfl

end Parser

namespace Along

variable {border : Border} {ts us : List Token}

theorem ended (along : Along border ts us) : Ended ts := by
  induction along with
  | last ends => exact .last ends
  | next _ _ goesOn _ ih => exact .next goesOn ih

theorem closed (along : Along border ts us) (isStop : border.first.kind = .endOfInput)
    (nothing : border.behind = []) : Closed us := by
  induction along with
  | last _ =>
      rw [nothing]
      exact closed_concat [border.close] (by simp [Token.isEnd, isStop])
  | next _ _ _ _ ih => exact ih.cons _

end Along

/-! The border behind the first query. -/

theorem kinds_of_spelled {operator : SetOperator} {first : Token} {more : List Token}
    (spells : (first :: more).map (·.kind) = operator.keywords.map .keyword) :
    ∃ k, first.kind = .keyword k ∧ (TokenKind.keyword k).isEdge = true ∧
      (more = [] ∨ ∃ all, more = [all] ∧ all.kind = .keyword .all) := by
  cases operator with
  | union =>
      obtain ⟨kind, none_⟩ : first.kind = .keyword .union ∧ more = [] := by
        simpa [SetOperator.keywords] using spells
      exact ⟨.union, kind, rfl, .inl none_⟩
  | unionAll =>
      obtain ⟨kind, all⟩ :
          first.kind = .keyword .union ∧ ∃ all, more = [all] ∧ all.kind = .keyword .all := by
        simpa [SetOperator.keywords, List.map_eq_singleton_iff] using spells
      exact ⟨.union, kind, rfl, .inr all⟩
  | except =>
      obtain ⟨kind, none_⟩ : first.kind = .keyword .except ∧ more = [] := by
        simpa [SetOperator.keywords] using spells
      exact ⟨.except, kind, rfl, .inl none_⟩
  | intersect =>
      obtain ⟨kind, none_⟩ : first.kind = .keyword .intersect ∧ more = [] := by
        simpa [SetOperator.keywords] using spells
      exact ⟨.intersect, kind, rfl, .inl none_⟩

theorem isEdge_of_spelled {operator : SetOperator} {first : Token} {more : List Token}
    (spells : (first :: more).map (·.kind) = operator.keywords.map .keyword) :
    first.kind.isEdge = true := by
  obtain ⟨k, kind, edge, -⟩ := kinds_of_spelled spells
  rwa [kind]

theorem isOpen_of_spelled {operator : SetOperator} {first : Token} {more : List Token}
    (spells : (first :: more).map (·.kind) = operator.keywords.map .keyword) :
    first.kind ≠ .punctuation .rightParen := by
  obtain ⟨k, kind, -⟩ := kinds_of_spelled spells
  simp [kind]

/-- From inside of a group a skip over such tokens ends behind them. -/
theorem Along.skipFrom_nests {border : Border} {stop : Token → Bool} {ts us : List Token}
    (along : Along border ts us) (nothing : border.behind = []) {depth outer : Nat}
    (nested : nests depth ts = true) {v : Token} {ahead : List Token} (split : us = v :: ahead) :
    (Cursor.skipFrom stop (depth + outer + 1) v ahead).ahead = [] := by
  induction along generalizing depth v ahead with
  | last _ =>
      cases split
      simp [Cursor.skipFrom, Token.isEnd, Token.isPunctuation, border.isClose, nothing]
  | @next t u ts us kind text goesOn rest ih =>
      cases split
      obtain ⟨v, vs, rfl⟩ := List.exists_cons_of_ne_nil rest.ne_nil_right
      have notEnd : u.isEnd = false := by simp [Token.isEnd, ← kind, goesOn]
      have opens : u.isPunctuation .leftParen = t.isPunctuation .leftParen := by
        simp [Token.isPunctuation, kind]
      have closes : u.isPunctuation .rightParen = t.isPunctuation .rightParen := by
        simp [Token.isPunctuation, kind]
      unfold nests at nested
      unfold Cursor.skipFrom
      rw [notEnd, if_neg Bool.false_ne_true, opens, closes]
      split at nested
      · rename_i opening
        rw [if_pos opening, show depth + outer + 1 + 1 = depth + 1 + outer + 1 by omega]
        exact ih nested rfl
      · rename_i noOpening
        rw [if_neg noOpening]
        split at nested
        · rename_i closing
          rw [if_pos closing]
          cases depth with
          | zero => contradiction
          | succ depth =>
              rw [show depth + 1 + outer + 1 = depth + outer + 1 + 1 by omega]
              exact ih nested rfl
        · rename_i noClosing
          rw [if_neg noClosing, if_neg (by simp)]
          exact ih nested rfl

/-- So does one that begins with the parenthesis before them. -/
theorem Along.skipFrom_opening {border : Border} {stop : Token → Bool} {ts us : List Token}
    (along : Along border ts us) (nothing : border.behind = []) (nested : nests 0 ts = true)
    {opening : Token} (opens : opening.kind = .punctuation .leftParen) (depth : Nat) :
    (Cursor.skipFrom stop depth opening us).ahead = [] := by
  obtain ⟨u, us, rfl⟩ := List.exists_cons_of_ne_nil along.ne_nil_right
  have passed :=
    @Along.skipFrom_nests border stop ts (u :: us) along nothing 0 depth nested u us rfl
  rw [Nat.zero_add] at passed
  simpa [Cursor.skipFrom, Token.isEnd, Token.isPunctuation, opens] using passed

/-- A skip passes a keyword, unless it stops there outside of all groups. -/
theorem Cursor.skipFrom_keyword {t u : Token} {us : List Token} {k : Keyword}
    (kind : t.kind = .keyword k) (stop : Token → Bool) (depth : Nat) :
    skipFrom stop depth t (u :: us) =
      if depth == 0 && stop t then ⟨t, u :: us⟩ else skipFrom stop depth u us := by
  simp [skipFrom, Token.isEnd, Token.isPunctuation, kind]

section

variable {last : Border} {operator : SetOperator} {close first opening : Token}
  {more : List Token} {c d : Cursor} {query : Query}

/-- Behind the first query a skip stops at once or runs to the end. -/
theorem skipFrom_operator {stop : Token → Bool} (halting : Halting stop) (depth : Nat)
    (spells : (first :: more).map (·.kind) = operator.keywords.map .keyword)
    (opens : opening.kind = .punctuation .leftParen)
    (along : Along last c.tokens d.tokens) (nothing : last.behind = [])
    (nested : nests 0 c.tokens = true) :
    Cursor.skipFrom stop depth first (more ++ opening :: d.tokens) =
        ⟨first, more ++ opening :: d.tokens⟩ ∨
      (Cursor.skipFrom stop depth first (more ++ opening :: d.tokens)).ahead = [] := by
  have passed : (Cursor.skipFrom stop depth opening d.tokens).ahead = [] :=
    along.skipFrom_opening nothing nested opens depth
  obtain ⟨k, kind, -, none_ | ⟨all, one, isAll⟩⟩ := kinds_of_spelled spells
  · rw [none_, List.nil_append, Cursor.skipFrom_keyword kind]
    split
    · exact .inl rfl
    · exact .inr passed
  · rw [one, List.singleton_append, Cursor.skipFrom_keyword kind]
    split
    · exact .inl rfl
    · rw [Cursor.skipFrom_keyword isAll, halting.passes all isAll, Bool.and_false,
        if_neg Bool.false_ne_true]
      exact .inr passed

/-- A query behind the operator complains or runs to the end. -/
theorem chains_operator (spells : (first :: more).map (·.kind) = operator.keywords.map .keyword)
    (opens : opening.kind = .punctuation .leftParen) (along : Along last c.tokens d.tokens)
    (isStop : last.first.kind = .endOfInput) (nothing : last.behind = [])
    (alone : Parser.Alone c.tokens query) (n : Nat) (operator' : SetOperator) (s : State)
    (found : Parser.setOperator? ⟨⟨first, more ++ opening :: d.tokens⟩, []⟩ =
      (some (some operator'), s)) :
    s.remaining < (more ++ opening :: d.tokens).length ∧
      ((Parser.queryChain (level n) s).2.reported ≠ [] ∨
        (Parser.queryChain (level n) s).2.cursor.ahead = []) := by
  rw [Parser.setOperator?_present spells opens] at found
  cases found
  refine ⟨?_, ?_⟩
  · simp only [State.remaining, Cursor.remaining, List.length_append, List.length_cons]
    omega
  · rcases run : Parser.queryChain (level n) ⟨⟨opening, d.tokens⟩, []⟩ with ⟨r, s⟩
    by_cases quiet : s.reported = []
    · have closed := along.closed isStop nothing
      obtain ⟨-, -, rfl, -⟩ :=
        Parser.queryChain_enclosed opens along closed alone isStop run quiet
      exact .inr nothing
    · exact .inl quiet

/-- The border of a text in parentheses that has a set operator behind it, and one more query in
parentheses up to the end. -/
def Border.ofOperator (isClose : close.kind = .punctuation .rightParen)
    (spells : (first :: more).map (·.kind) = operator.keywords.map .keyword)
    (opens : opening.kind = .punctuation .leftParen) (along : Along last c.tokens d.tokens)
    (isStop : last.first.kind = .endOfInput) (nothing : last.behind = [])
    (alone : Parser.Alone c.tokens query) : Border where
  close := close
  first := first
  behind := more ++ opening :: d.tokens
  isClose := isClose
  isEdge := isEdge_of_spelled spells
  isOpen := isOpen_of_spelled spells
  skips _ depth halting :=
    skipFrom_operator halting depth spells opens along nothing (alone.nests along.ended)
  chains := chains_operator spells opens along isStop nothing alone

end

namespace Parser

variable {last : Border} {operator : SetOperator} {close first opening opening' : Token}
  {more : List Token} {c c' d d' : Cursor} {n : Nat} {query query' : Query} {r : Option Query}
  {s : State}

/-- Two queries in parentheses with an operator between them: the second is joined to the first, in
the place of what was joined to it before. -/
theorem queryChain_operands (isClose : close.kind = .punctuation .rightParen)
    (spells : (first :: more).map (·.kind) = operator.keywords.map .keyword)
    (opens : opening.kind = .punctuation .leftParen)
    (opens' : opening'.kind = .punctuation .leftParen)
    (along' : Along last c'.tokens d'.tokens) (isStop : last.first.kind = .endOfInput)
    (nothing : last.behind = []) (alone' : Alone c'.tokens query')
    (along : Along (.ofOperator isClose spells opens' along' isStop nothing alone') c.tokens
      d.tokens)
    (closed : Closed d.tokens) (alone : Alone c.tokens query)
    (run : queryChain (level n) ⟨⟨opening, d.tokens⟩, []⟩ = (r, s)) (quiet : s.reported = []) :
    ∃ left right : Query, r = some { left with setOperation := some ⟨operator, right⟩ } ∧
      s = ⟨⟨last.first, last.behind⟩, []⟩ ∧ imprint query = imprint left ∧
      imprint query' = imprint right := by
  have found := @setOperator?_present operator first opening' more d'.tokens [] spells opens'
  have moves : (State.mk ⟨opening', d'.tokens⟩ []).remaining <
      (State.mk ⟨opening, d.tokens⟩ []).remaining := by
    have length := along.length
    simp only [Border.ofOperator, List.length_append, List.length_cons] at length
    simp only [State.remaining, Cursor.remaining]
    omega
  obtain ⟨left, r', same, rest, rfl⟩ := queryChain_joined opens along closed alone found moves run
    quiet
  obtain ⟨right, rfl, rfl, same'⟩ :=
    queryChain_enclosed opens' along' (along'.closed isStop nothing) alone' isStop rest quiet
  exact ⟨left, right, rfl, rfl, same, same'⟩

/-- As a statement they keep the marks of the first query's clauses and all those of the second. -/
theorem query_operands (isClose : close.kind = .punctuation .rightParen)
    (spells : (first :: more).map (·.kind) = operator.keywords.map .keyword)
    (opens : opening.kind = .punctuation .leftParen)
    (opens' : opening'.kind = .punctuation .leftParen)
    (along' : Along last c'.tokens d'.tokens) (isStop : last.first.kind = .endOfInput)
    (nothing : last.behind = []) (alone' : Alone c'.tokens query')
    (along : Along (.ofOperator isClose spells opens' along' isStop nothing alone') c.tokens
      d.tokens)
    (closed : Closed d.tokens) (alone : Alone c.tokens query)
    (run : (level (n + 1)).query ⟨⟨opening, d.tokens⟩, []⟩ = (r, s)) (quiet : s.reported = []) :
    ∃ whole, r = some whole ∧ s = ⟨⟨last.first, last.behind⟩, []⟩ ∧ whole.commonMarks = [] ∧
      whole.ownMarks = query.ownMarks ∧ whole.joinedMarks = query'.outline.marks := by
  obtain ⟨r₁, chain, rfl⟩ := query_quiet_opening opens run
  obtain ⟨left, right, rfl, rfl, same, same'⟩ := queryChain_operands isClose spells opens opens'
    along' isStop nothing alone' along closed alone chain quiet
  refine ⟨_, rfl, rfl, rfl, ?_, ?_⟩
  · exact (congrArg (·.2.1) same).symm
  · have marks : right.outline.marks = query'.outline.marks := by
      have parts : query'.commonMarks = right.commonMarks ∧ query'.ownMarks = right.ownMarks ∧
          query'.joinedMarks = right.joinedMarks := by simpa [imprint] using same'
      rw [Query.marks_outline, Query.marks_outline, parts.1, parts.2.1, parts.2.2]
    simpa [Query.joinedMarks] using marks

end Parser

end Grammar

end QueryNames
