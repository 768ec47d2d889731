import QueryNames.Proofs.Groups.Open

/-!
Two cursors over the tokens of an expression, which end under the one and go on under the other:
with an operator, or with the end of an item of a list. Main statements: what is looked at in
passing is the same under both, and a movement keeps them together, unless the first comes to the
end of its input.
-/

namespace QueryNames

open Grammar

/-- The words that join two operands. -/
@[reducible] def Keyword.joins : Keyword → Bool
  | .or | .and => true
  | _ => false

/-- What joins two operands. -/
def TokenKind.joins (k : TokenKind) : Bool :=
  (disjunction? k).isSome || (conjunction? k).isSome || (comparison? k).isSome ||
    (additive? k).isSome || (multiplicative? k).isSome

theorem TokenKind.forall_joins {p : TokenKind → Prop} (or : p (.keyword .or))
    (and : p (.keyword .and)) (star : p .star) (operator : ∀ o, p (.operator o)) :
    ∀ k : TokenKind, k.joins = true → p k := by
  intro k joins
  cases k with
  | keyword k => cases k <;> first | exact or | exact and | cases joins
  | star => exact star
  | operator o => exact operator o
  | _ => cases joins

/-- What parts an item of a list from the next one, or from what is behind the list. -/
@[reducible] def Punctuation.parts : Punctuation → Bool
  | .comma | .rightParen => true
  | _ => false

/-- What may stand behind an expression in a longer text. -/
def TokenKind.follows : TokenKind → Bool
  | .punctuation p => p.parts
  | k => k.joins

theorem TokenKind.follows_of_joins {k : TokenKind} (joins : k.joins = true) : k.follows = true := by
  cases k with
  | punctuation => cases joins
  | _ => exact joins

theorem TokenKind.forall_follows {p : TokenKind → Prop} (or : p (.keyword .or))
    (and : p (.keyword .and)) (star : p .star) (operator : ∀ o, p (.operator o))
    (comma : p (.punctuation .comma)) (closing : p (.punctuation .rightParen)) :
    ∀ k : TokenKind, k.follows = true → p k := by
  intro k follows
  cases k with
  | punctuation p => cases p <;> first | exact comma | exact closing | cases follows
  | _ => exact forall_joins or and star operator _ follows

namespace Grammar

/-- What is passed over behind `WITHIN` or `WITHIN GROUP` reaches to the end of the tokens, and a
group in it is never closed. -/
def OrderingLeftOpen (tokens : List Token) : Prop :=
  ∃ front word, ∃ c : Cursor, ∃ left, front ++ word :: c.tokens = tokens ∧
    (word.isWord "WITHIN" || word.isKeyword .group) = true ∧
    c.skipParenthesized.isAtEnd = true ∧ opened 0 c.tokens = some (left + 1)

/-- Nothing is passed over where neither word stands. -/
theorem not_orderingLeftOpen {tokens : List Token}
    (plain : ∀ t ∈ tokens, (t.isWord "WITHIN" || t.isKeyword .group) = false) :
    ¬OrderingLeftOpen tokens := by
  rintro ⟨front, word, c, left, split, announces, -⟩
  have plainWord := plain word (by simp [← split])
  rw [announces] at plainWord
  cases plainWord

/-- The tokens of an expression with their end, and what follows them in a longer list. Behind an
operator that is the end of that list. -/
structure Overhang where
  tokens : List Token
  stop : Token
  next : Token
  behind : List Token
  goesOn : ∀ t ∈ tokens, t.kind ≠ .endOfInput
  isStop : stop.kind = .endOfInput
  follows : next.kind.follows = true
  ends : next.kind.joins = true → ∃ last, last.kind = .endOfInput ∧ behind = [last]
  closed : ¬OrderingLeftOpen (tokens ++ [stop])

namespace Overhang

variable {x : Overhang}

/-- The end of the shorter list. -/
def left (x : Overhang) : Cursor := ⟨x.stop, []⟩

/-- What the longer list has in its place. -/
def right (x : Overhang) : Cursor := ⟨x.next, x.behind⟩

/-- An operator follows, and behind it the input ends. -/
structure Hangs (x : Overhang) (last : Token) : Prop where
  joins : x.next.kind.joins = true
  isLast : last.kind = .endOfInput
  behind : x.behind = [last]

/-- The same tokens of the expression are ahead. -/
def Paired (x : Overhang) (c d : Cursor) : Prop :=
  ∃ front ahead, front ++ ahead = x.tokens ∧ c.tokens = ahead ++ x.left.tokens ∧
    d.tokens = ahead ++ x.right.tokens

/-- A test that does not tell what follows from the end of input. -/
theorem same {f : TokenKind → α} (or : f (.keyword .or) = f .endOfInput)
    (and : f (.keyword .and) = f .endOfInput) (star : f .star = f .endOfInput)
    (operator : ∀ o, f (.operator o) = f .endOfInput)
    (comma : f (.punctuation .comma) = f .endOfInput)
    (closing : f (.punctuation .rightParen) = f .endOfInput) : f x.stop.kind = f x.next.kind := by
  rw [x.isStop]
  exact (TokenKind.forall_follows (p := fun k => f k = f .endOfInput) or and star operator comma
    closing _ x.follows).symm

theorem exists_hangs (x : Overhang) (joins : x.next.kind.joins = true) : ∃ last, x.Hangs last := by
  obtain ⟨last, isLast, behind⟩ := x.ends joins
  exact ⟨last, joins, isLast, behind⟩

theorem goesOn_right (x : Overhang) : x.next.kind ≠ .endOfInput :=
  ne_of_apply_ne TokenKind.follows (by rw [x.follows]; decide)

theorem noName (x : Overhang) : x.next.kind ≠ .identifier :=
  ne_of_apply_ne TokenKind.follows (by rw [x.follows]; decide)

theorem stop_isPunctuation (x : Overhang) (p : Punctuation) : x.stop.isPunctuation p = false := by
  simp [Token.isPunctuation, x.isStop]

theorem next_isPunctuation (x : Overhang) {p : Punctuation} (other : p.parts = false) :
    x.next.isPunctuation p = false := by
  have differs {q : Punctuation} (parts : q.parts = true) :
      (TokenKind.punctuation q == .punctuation p) = false := by
    rw [beq_eq_false_iff_ne]
    rintro ⟨⟩
    rw [other] at parts
    cases parts
  exact TokenKind.forall_follows (p := fun k => (k == .punctuation p) = false) rfl rfl rfl
    (fun _ => rfl) (differs rfl) (differs rfl) _ x.follows

namespace Paired

variable {c d : Cursor}

theorem split (paired : x.Paired c d) : ∃ front, front ++ c.tokens = x.tokens ++ [x.stop] := by
  obtain ⟨front, ahead, whole, left, -⟩ := paired
  exact ⟨front, by rw [left, ← List.append_assoc, whole]; rfl⟩

theorem closed (paired : x.Paired c d) : Closed c.tokens := by
  obtain ⟨front, ahead, -, left, -⟩ := paired
  rw [left]
  exact closed_concat ahead (by simp [Overhang.left, Token.isEnd, x.isStop])

/-- At the end of the expression, or at the same token of it with more behind it. -/
theorem view (paired : x.Paired c d) :
    (c = x.left ∧ d = x.right) ∨
      ∃ t c' d', t.kind ≠ .endOfInput ∧ c = ⟨t, c'.tokens⟩ ∧ d = ⟨t, d'.tokens⟩ ∧
        x.Paired c' d' := by
  obtain ⟨front, _ | ⟨t, ahead⟩, whole, left, right⟩ := paired
  · exact .inl ⟨Cursor.eq_of_tokens left, Cursor.eq_of_tokens right⟩
  · obtain ⟨c', behind⟩ := @Cursor.exists_tokens (ahead ++ x.left.tokens) (by simp)
    obtain ⟨d', behind'⟩ := @Cursor.exists_tokens (ahead ++ x.right.tokens) (by simp)
    have goesOn : t.kind ≠ .endOfInput := x.goesOn t (by simp [← whole])
    refine .inr ⟨t, c', d', goesOn, Cursor.eq_of_tokens (c := c) (d := ⟨t, c'.tokens⟩) ?_,
      Cursor.eq_of_tokens (c := d) (d := ⟨t, d'.tokens⟩) ?_, front ++ [t], ahead, ?_, behind,
      behind'⟩
    · rw [left, behind]
      rfl
    · rw [right, behind']
      rfl
    · rw [← whole, List.append_assoc, List.singleton_append]

theorem remaining (paired : x.Paired c d) :
    d.remaining = c.remaining + x.behind.length := by
  obtain ⟨front, ahead, -, left, right⟩ := paired
  have length := congrArg List.length left
  have length' := congrArg List.length right
  simp only [Cursor.tokens, Overhang.left, Overhang.right, List.length_append, List.length_cons,
    List.length_nil] at length length'
  simp only [Cursor.remaining]
  omega

/-- A test that does not tell what follows from the end of input. -/
theorem current {q : Token → α} (paired : x.Paired c d) (same : q x.stop = q x.next) :
    q c.current = q d.current := by
  rcases paired.view with ⟨rfl, rfl⟩ | ⟨t, c', d', -, rfl, rfl, -⟩
  · exact same
  · rfl

theorem inside {n : Nat} (paired : x.Paired c d) (ahead : Ahead (n + 1) c) :
    ∃ t c' d', t.kind ≠ .endOfInput ∧ c = ⟨t, c'.tokens⟩ ∧ d = ⟨t, d'.tokens⟩ ∧
      x.Paired c' d' ∧ Ahead n c' := by
  rcases paired.view with ⟨rfl, rfl⟩ | ⟨t, c', d', goesOn, rfl, rfl, rest⟩
  · exact absurd x.isStop ahead.goesOn
  · exact ⟨t, c', d', goesOn, rfl, rfl, rest, ahead.tail⟩

/-- A skip comes to the same place of the expression, or to its end. -/
theorem skipFrom (stop : Token → Bool) (depth : Nat) (paired : x.Paired c d) :
    x.Paired (Cursor.skipFrom stop depth c.current c.ahead)
        (Cursor.skipFrom stop depth d.current d.ahead) ∨
      Cursor.skipFrom stop depth c.current c.ahead = x.left := by
  induction length : c.remaining using Nat.strongRecOn generalizing c d depth with
  | ind n ih =>
      have whole := paired
      rcases paired.view with ⟨rfl, rfl⟩ | ⟨t, c', d', goesOn, rfl, rfl, rest⟩
      · exact .inr rfl
      · have shorter : c'.remaining < n := by
          simp only [Cursor.remaining, Cursor.tokens, List.length_cons] at length ⊢
          omega
        have further (depth : Nat) := @ih _ shorter c' d' depth rest rfl
        by_cases opens : t.kind = .punctuation .leftParen
        · rw [Cursor.skipFrom_opening c' opens, Cursor.skipFrom_opening d' opens]
          exact further (depth + 1)
        · by_cases closes : t.kind = .punctuation .rightParen
          · cases depth with
            | zero =>
                rw [Cursor.skipFrom_outer c' closes, Cursor.skipFrom_outer d' closes]
                exact .inl whole
            | succ depth =>
                rw [Cursor.skipFrom_closing c' closes, Cursor.skipFrom_closing d' closes]
                exact further depth
          · rw [Cursor.skipFrom_other c' goesOn opens closes,
              Cursor.skipFrom_other d' goesOn opens closes]
            split
            · exact .inl whole
            · exact further depth

theorem skipUntil (stop : Token → Bool) (paired : x.Paired c d) :
    x.Paired (c.skipUntil stop) (d.skipUntil stop) ∨ c.skipUntil stop = x.left :=
  paired.skipFrom stop 0

theorem advance (paired : x.Paired c d) (ahead : Ahead 1 c) : x.Paired c.advance d.advance := by
  obtain ⟨t, c', d', goesOn, rfl, rfl, rest, -⟩ := paired.inside ahead
  rwa [Cursor.advance_step goesOn, Cursor.advance_step goesOn]

/-- What a test finds at one of the two places and not behind the expression is passed in both. -/
theorem advance_if {q : Token → Bool} (paired : x.Paired c d) (stop : q x.stop = false)
    (next : q x.next = false) :
    x.Paired (if q c.current then c.advance else c) (if q d.current then d.advance else d) := by
  rcases paired.view with ⟨rfl, rfl⟩ | ⟨t, c', d', goesOn, rfl, rfl, rest⟩
  · rw [if_neg (by simp [left, stop]), if_neg (by simp [right, next])]
    exact paired
  · dsimp only
    split
    · rwa [Cursor.advance_step goesOn, Cursor.advance_step goesOn]
    · exact paired

theorem isPunctuation (paired : x.Paired c d) {p : Punctuation} (other : p.parts = false) :
    c.current.isPunctuation p = d.current.isPunctuation p :=
  paired.current ((x.stop_isPunctuation p).trans (x.next_isPunctuation other).symm)

theorem isSelectOrWith (paired : x.Paired c d) :
    isSelectOrWith c.current = isSelectOrWith d.current :=
  paired.current (x.same (f := fun k => k == .keyword .select || k == .keyword .with)
    rfl rfl rfl (fun _ => rfl) rfl rfl)

/-- A group is passed in both, or not closed in the first. -/
theorem skipParenthesized (paired : x.Paired c d) :
    x.Paired c.skipParenthesized d.skipParenthesized ∨
      (c.skipParenthesized = x.left ∧ ∃ left, opened 0 c.tokens = some (left + 1)) := by
  unfold Cursor.skipParenthesized
  rw [← paired.isPunctuation rfl]
  by_cases opens : c.current.isPunctuation .leftParen = true
  · rw [if_pos opens, if_pos opens]
    rcases paired.view with ⟨rfl, rfl⟩ | ⟨t, c', d', goesOn, rfl, rfl, rest⟩
    · rw [left, x.stop_isPunctuation] at opens
      cases opens
    rw [Cursor.advance_step goesOn, Cursor.advance_step goesOn]
    dsimp only
    by_cases ends : c'.skipGroup = x.left
    · rw [ends, if_neg (by simp [left, x.stop_isPunctuation])]
      obtain ⟨passed, open_, split, number, -⟩ := Cursor.skipGroup_opened rest.closed
      refine .inr ⟨rfl, open_, ?_⟩
      rw [Cursor.tokens, opened_opening opens, ← split, opened_append, number, Option.bind_some,
        ends]
      rw [Nat.zero_add, Nat.add_comm]
      exact opened_end (by simp [left, Token.isEnd, x.isStop]) _
    -- what follows would close the group only where it is left open before the end
    · have inner : x.Paired c'.skipGroup d'.skipGroup :=
        (rest.skipUntil fun _ => false).resolve_right ends
      rcases inner.view with ⟨atEnd, -⟩ | ⟨u, c'', d'', goesOn', same, same', rest'⟩
      · exact absurd atEnd ends
      · left
        rw [same, same'] at inner ⊢
        split
        · rwa [Cursor.advance_step goesOn', Cursor.advance_step goesOn']
        · exact inner
  · rw [if_neg opens, if_neg opens]
    exact .inl paired

/-- What is passed over behind `WITHIN` is closed, if it is a group. -/
theorem skipOrdering {word : Token} (behind : x.Paired ⟨word, c.tokens⟩ ⟨word, d.tokens⟩)
    (paired : x.Paired c d) (is : (word.isWord "WITHIN" || word.isKeyword .group) = true) :
    x.Paired c.skipParenthesized d.skipParenthesized := by
  rcases paired.skipParenthesized with kept | ⟨ends, open_, unclosed⟩
  · exact kept
  · obtain ⟨front, split⟩ := behind.split
    have atEnd : c.skipParenthesized.isAtEnd = true := by
      rw [ends]
      simp [left, Cursor.isAtEnd, Token.isEnd, x.isStop]
    exact absurd ⟨front, word, c, open_, split, is, atEnd, unclosed⟩ x.closed

/-! What is looked at ahead. -/

theorem peek (paired : x.Paired c d) {q : Token → α} (same : q x.stop = q x.next)
    (ahead : Ahead 1 c) : q (c.peek 1) = q (d.peek 1) := by
  obtain ⟨t, c', d', -, rfl, rfl, rest, -⟩ := paired.inside ahead
  rw [Cursor.peek_step, Cursor.peek_step]
  exact rest.current same

theorem opensQuery (paired : x.Paired c d) : c.opensQuery = d.opensQuery := by
  rcases paired.view with ⟨rfl, rfl⟩ | ⟨t, c', d', goesOn, rfl, rfl, rest⟩
  · simp [Cursor.opensQuery, left, right, x.stop_isPunctuation,
      x.next_isPunctuation (p := .leftParen) rfl]
  · rw [Cursor.opensQuery, Cursor.opensQuery, Cursor.peek_step, Cursor.peek_step,
      rest.isSelectOrWith]

theorem opensQueryDeep (paired : x.Paired c d) : c.opensQueryDeep = d.opensQueryDeep := by
  have selects : Grammar.isSelectOrWith x.stop = Grammar.isSelectOrWith x.next :=
    x.same (f := fun k => k == .keyword .select || k == .keyword .with) rfl rfl rfl (fun _ => rfl)
      rfl rfl
  have heads (ahead : List Token) :
      ((ahead ++ x.left.tokens).dropWhile (·.isPunctuation .leftParen)).head?.any
          Grammar.isSelectOrWith =
        ((ahead ++ x.right.tokens).dropWhile (·.isPunctuation .leftParen)).head?.any
          Grammar.isSelectOrWith := by
    induction ahead with
    | nil =>
        simp [left, right, Cursor.tokens, x.stop_isPunctuation,
          x.next_isPunctuation (p := .leftParen) rfl, selects]
    | cons t ts ih =>
        rw [List.cons_append, List.cons_append, List.dropWhile_cons, List.dropWhile_cons]
        split
        · exact ih
        · rfl
  have opens := paired.isPunctuation (p := .leftParen) rfl
  obtain ⟨front, ahead, -, left, right⟩ := paired
  rw [Cursor.opensQueryDeep, Cursor.opensQueryDeep, opens, left, right, heads]

theorem startsQuery (paired : x.Paired c d) (ahead : Ahead 1 c) :
    c.startsQuery = d.startsQuery := by
  have deep := paired.opensQueryDeep
  obtain ⟨t, c', d', -, rfl, rfl, rest, -⟩ := paired.inside ahead
  have next : (c'.current.kind == .identifier) = (d'.current.kind == .identifier) :=
    rest.current (q := fun t => t.kind == .identifier)
      (x.same (f := (· == .identifier)) rfl rfl rfl (fun _ => rfl) rfl rfl)
  unfold Cursor.startsQuery
  rw [Cursor.peek_step, Cursor.peek_step, next, deep]

end Paired

end Overhang

end Grammar

end QueryNames
