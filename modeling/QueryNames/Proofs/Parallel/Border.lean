import QueryNames.Grammar.Script
import QueryNames.Proofs.Grammar.Cursor

/-!
Two cursors over the same text, which stands alone under the one and in parentheses under the
other. Main statements: what is looked at in passing is the same under both, and a movement keeps
them side by side, unless the second comes to the end of its input.
-/

namespace QueryNames

/-- What may stand in a longer text where the shorter one ends. -/
def TokenKind.isEdge : TokenKind → Bool
  | .endOfInput | .punctuation .rightParen => true
  | .keyword .union | .keyword .except | .keyword .intersect => true
  | _ => false

theorem TokenKind.forall_edge {p : TokenKind → Prop} (stop : p .endOfInput)
    (closing : p (.punctuation .rightParen)) (union : p (.keyword .union))
    (except : p (.keyword .except)) (intersect : p (.keyword .intersect)) :
    ∀ k : TokenKind, k.isEdge = true → p k := by
  intro k edge
  unfold isEdge at edge
  split at edge
  · exact stop
  · exact closing
  · exact union
  · exact except
  · exact intersect
  · contradiction

namespace Token

/-- The same token at another place, or what the shorter text has its end for. -/
def Meets (t u : Token) : Prop :=
  (t.kind = u.kind ∧ t.text = u.text) ∨ (t.kind = .endOfInput ∧ u.kind.isEdge = true)

/-- A test that does not tell tokens that meet. -/
def Blind (q : Token → α) : Prop := ∀ t u : Token, Meets t u → q t = q u

namespace Meets

variable {t u : Token}

theorem refl (t : Token) : Meets t t := .inl ⟨rfl, rfl⟩

theorem of_kind {f : TokenKind → α} (meets : Meets t u)
    (edges : ∀ k : TokenKind, k.isEdge = true → f k = f .endOfInput) : f t.kind = f u.kind := by
  rcases meets with ⟨kind, -⟩ | ⟨ends, edge⟩
  · rw [kind]
  · rw [ends, edges _ edge]

end Meets

theorem blind_kind {f : TokenKind → α}
    (edges : ∀ k : TokenKind, k.isEdge = true → f k = f .endOfInput) :
    Blind fun t => f t.kind := fun _ _ meets => meets.of_kind edges

/-- The keywords by which one query is joined to another. -/
theorem blind_isKeyword {k : Keyword} (union : k ≠ .union) (except : k ≠ .except)
    (intersect : k ≠ .intersect) : Blind (isKeyword k) := by
  have differs {j : Keyword} (other : k ≠ j) :
      (TokenKind.keyword j == .keyword k) = (TokenKind.endOfInput == .keyword k) :=
    beq_false_of_ne fun same => other (TokenKind.keyword.inj same).symm
  exact @blind_kind _ (· == .keyword k)
    (TokenKind.forall_edge rfl rfl (differs union) (differs except) (differs intersect))

theorem blind_isPunctuation {p : Punctuation} (other : p ≠ .rightParen) :
    Blind (isPunctuation p) := by
  refine @blind_kind _ (· == .punctuation p) (TokenKind.forall_edge rfl ?_ rfl rfl rfl)
  exact beq_false_of_ne fun same => other (TokenKind.punctuation.inj same).symm

/-- So is a test of the texts of identifiers. -/
theorem blind_identifier {q : String → Bool} :
    Blind fun t => t.kind == .identifier && q t.text := by
  rintro t u (⟨kind, text⟩ | ⟨ends, edge⟩) <;> dsimp only
  · rw [kind, text]
  · have plain : (u.kind == .identifier) = false :=
      TokenKind.forall_edge (p := fun k => (k == .identifier) = false) rfl rfl rfl rfl rfl _ edge
    rw [plain, ends]
    rfl

theorem blind_isWord {word : String} : Blind (isWord word) :=
  @blind_identifier fun text => Text.sameAsciiCase text.toList word.toList

theorem blind_isPlainName : Blind isPlainName :=
  @blind_identifier fun text => text.toList.all fun c => Text.isAlphanumeric c || c == '_'

end Token

namespace Grammar

open Token

theorem blind_endsClause : Blind endsClause :=
  @blind_kind _ (fun k => endsClause ⟨k, "", .none⟩)
    (TokenKind.forall_edge rfl rfl rfl rfl rfl)

theorem blind_endsItem : Blind endsItem := by
  intro t u meets
  simp only [endsItem, blind_isPunctuation (p := .comma) nofun t u meets,
    blind_endsClause t u meets]

theorem blind_endsTable : Blind endsTable :=
  @blind_kind _ (fun k => endsTable ⟨k, "", .none⟩)
    (TokenKind.forall_edge rfl rfl rfl rfl rfl)

theorem blind_endsOrderItem : Blind endsOrderItem := by
  intro t u meets
  simp only [endsOrderItem, blind_endsItem t u meets, blind_isWord t u meets]

theorem blind_isSelectOrWith : Blind isSelectOrWith := by
  intro t u meets
  simp only [isSelectOrWith, blind_isKeyword (k := .select) nofun nofun nofun t u meets,
    blind_isKeyword (k := .with) nofun nofun nofun t u meets]

/-- A test at which skips stop. It does not tell tokens that meet, and does not halt inside of a set
operator. -/
structure Halting (stop : Token → Bool) : Prop where
  blind : Blind stop
  passes : ∀ t : Token, t.kind = .keyword .all → stop t = false

theorem halting_never : Halting fun _ => false := ⟨fun _ _ _ => rfl, fun _ _ => rfl⟩

theorem halting_endsClause : Halting endsClause where
  blind := blind_endsClause
  passes t all := by simp [endsClause, all, Keyword.endsClause, Keyword.startsOtherStatement]

theorem halting_endsItem : Halting endsItem where
  blind := blind_endsItem
  passes t all := by simp [endsItem, isPunctuation, all, halting_endsClause.passes t all]

theorem halting_endsTable : Halting endsTable where
  blind := blind_endsTable
  passes t all := by simp [endsTable, halting_endsItem.passes t all, all, Keyword.startsJoin]

theorem halting_endsOrderItem : Halting endsOrderItem where
  blind := blind_endsOrderItem
  passes t all := by simp [endsOrderItem, halting_endsItem.passes t all, isWord, all]

/-- What the longer text has behind the end of the shorter one: a closing parenthesis, and either
the end of its input or a set operation. Past that parenthesis nothing comes back into the text:
a skip stops at once or runs to the end of input, and so does a query behind a set operator, unless
there is a complaint. -/
structure Border where
  close : Token
  first : Token
  behind : List Token
  isClose : close.kind = .punctuation .rightParen
  isEdge : first.kind.isEdge = true
  isOpen : first.kind ≠ .punctuation .rightParen
  skips : ∀ (stop : Token → Bool) (depth : Nat), Halting stop →
    Cursor.skipFrom stop depth first behind = ⟨first, behind⟩ ∨
      (Cursor.skipFrom stop depth first behind).ahead = []
  chains : ∀ (n : Nat) (operator : SetOperator) (s : State),
    Parser.setOperator? ⟨⟨first, behind⟩, []⟩ = (some (some operator), s) →
    s.remaining < behind.length ∧ ((Parser.queryChain (level n) s).2.reported ≠ [] ∨
      (Parser.queryChain (level n) s).2.cursor.ahead = [])

variable {border : Border}

/-- Token by token the same, to the end of the one list and the parenthesis in the other. -/
inductive Along (border : Border) : List Token → List Token → Prop
  | last {stop : Token} (ends : stop.kind = .endOfInput) :
      Along border [stop] (border.close :: border.first :: border.behind)
  | next {t u : Token} {ts us : List Token} (kind : t.kind = u.kind) (text : t.text = u.text)
      (goesOn : t.kind ≠ .endOfInput) (rest : Along border ts us) :
      Along border (t :: ts) (u :: us)

namespace Along

variable {ts us : List Token}

theorem length (along : Along border ts us) :
    us.length = ts.length + 1 + border.behind.length := by
  induction along with
  | last => simp; omega
  | next _ _ _ _ ih => simp [ih]; omega

theorem ne_nil (along : Along border ts us) : ts ≠ [] := by
  cases along <;> exact List.cons_ne_nil _ _

theorem ne_nil_right (along : Along border ts us) : us ≠ [] := by
  cases along <;> exact List.cons_ne_nil _ _

theorem head {t u : Token} (along : Along border (t :: ts) (u :: us)) : Meets t u := by
  cases along with
  | last ends =>
      refine .inr ⟨ends, ?_⟩
      rw [border.isClose]
      rfl
  | next kind text _ _ => exact .inl ⟨kind, text⟩

end Along

/-- Side by side, or past the parenthesis where the shorter list is at its end. -/
inductive Near (border : Border) : Cursor → Cursor → Prop
  | along {c d : Cursor} (along : Along border c.tokens d.tokens) : Near border c d
  | past {stop : Token} (ends : stop.kind = .endOfInput) :
      Near border ⟨stop, []⟩ ⟨border.first, border.behind⟩

namespace Near

variable {c d : Cursor}

theorem ahead_eq_nil (near : Near border c d) (ends : c.current.kind = .endOfInput) :
    c.ahead = [] := by
  obtain ⟨t, ts⟩ := c
  obtain ⟨u, us⟩ := d
  rcases near with ⟨⟨⟩ | ⟨-, -, goesOn, -⟩⟩ | -
  · rfl
  · exact absurd ends goesOn
  · rfl

theorem lengths (near : Near border c d) :
    d.ahead.length = c.ahead.length + 1 + border.behind.length ∨
      (c.ahead.length = 0 ∧ d.ahead.length = border.behind.length) := by
  cases near with
  | along along =>
      have length := along.length
      simp only [Cursor.tokens, List.length_cons] at length
      omega
  | past _ => exact .inr ⟨rfl, rfl⟩

theorem meets (near : Near border c d) : Meets c.current d.current := by
  cases near with
  | along along => exact along.head
  | past ends => exact .inr ⟨ends, border.isEdge⟩

theorem opens (near : Near border c d) :
    c.current.isPunctuation .leftParen = d.current.isPunctuation .leftParen :=
  blind_isPunctuation (p := .leftParen) nofun _ _ near.meets

theorem unopened (near : Near border c d) (ends : c.current.kind = .endOfInput) :
    d.current.isPunctuation .leftParen = false := by
  rw [← near.opens]
  simp [isPunctuation, ends]

/-- Before the end of the shorter text both have the same token and others behind it. -/
theorem inside (near : Near border c d) (goesOn : c.current.kind ≠ .endOfInput) :
    c.current.kind = d.current.kind ∧ c.current.text = d.current.text ∧
      ∃ t ts u us, c.ahead = t :: ts ∧ d.ahead = u :: us ∧ Along border (t :: ts) (u :: us) := by
  obtain ⟨t, ts⟩ := c
  obtain ⟨u, us⟩ := d
  rcases near with ⟨⟨ends⟩ | ⟨kind, text, -, rest⟩⟩ | ends
  · exact absurd ends goesOn
  · refine ⟨kind, text, ?_⟩
    cases ts with
    | nil => exact absurd rfl rest.ne_nil
    | cons t ts =>
        cases us with
        | nil => exact absurd rest.length (by simp; omega)
        | cons u us => exact ⟨t, ts, u, us, rfl, rfl, rest⟩
  · exact absurd ends goesOn

theorem advance (near : Near border c d) (goesOn : c.current.kind ≠ .endOfInput) :
    Near border c.advance d.advance := by
  obtain ⟨kind, -, t, ts, u, us, left, right, rest⟩ := near.inside goesOn
  have leftGoesOn : c.isAtEnd = false := Cursor.isAtEnd_eq_false rfl goesOn
  have rightGoesOn : d.isAtEnd = false := Cursor.isAtEnd_eq_false kind.symm goesOn
  have leftStep : c.advance = ⟨t, ts⟩ := by simp [Cursor.advance, leftGoesOn, left]
  have rightStep : d.advance = ⟨u, us⟩ := by simp [Cursor.advance, rightGoesOn, right]
  rw [leftStep, rightStep]
  exact .along rest

theorem peek (near : Near border c d) (goesOn : c.current.kind ≠ .endOfInput) :
    Meets (c.peek 1) (d.peek 1) := by
  obtain ⟨-, -, t, ts, u, us, left, right, rest⟩ := near.inside goesOn
  simpa [Cursor.peek, Cursor.tokens, left, right] using rest.head

theorem advance_current (near : Near border c d) (goesOn : c.current.kind ≠ .endOfInput) :
    c.advance.current = c.peek 1 ∧ d.advance.current = d.peek 1 := by
  obtain ⟨kind, -, t, ts, u, us, left, right, -⟩ := near.inside goesOn
  have leftGoesOn : c.isAtEnd = false := Cursor.isAtEnd_eq_false rfl goesOn
  have rightGoesOn : d.isAtEnd = false := Cursor.isAtEnd_eq_false kind.symm goesOn
  constructor
  · simp [Cursor.advance, Cursor.peek, Cursor.tokens, leftGoesOn, left]
  · simp [Cursor.advance, Cursor.peek, Cursor.tokens, rightGoesOn, right]

/-- Where the one place is further on, so is the other. -/
theorem progress {c' d' : Cursor} (near : Near border c d) (after : Near border c' d')
    (shorter : c'.remaining ≤ c.remaining) (stays : c.current.kind = .endOfInput → d' = d) :
    c'.remaining < c.remaining ↔ d'.remaining < d.remaining := by
  simp only [Cursor.remaining] at shorter ⊢
  cases after.lengths with
  | inl after =>
      cases near.lengths with
      | inl before => omega
      | inr before => omega
  | inr after =>
      cases near.lengths with
      | inl before =>
          by_cases ends : c.current.kind = .endOfInput
          · have none := near.ahead_eq_nil ends
            have shortest : c.ahead.length = 0 := by rw [none, List.length_nil]
            rw [stays ends] at after
            omega
          · obtain ⟨-, -, t, ts, u, us, ahead, -, -⟩ := near.inside ends
            have longer : c.ahead.length = ts.length + 1 := by rw [ahead, List.length_cons]
            omega
      | inr before => omega

/-- A skip from one place ends in one place. -/
theorem skipFrom {stop : Token → Bool} (halting : Halting stop) {depth : Nat} {t u : Token}
    {ts us : List Token} (along : Along border (t :: ts) (u :: us)) :
    Near border (Cursor.skipFrom stop depth t ts) (Cursor.skipFrom stop depth u us) ∨
      (Cursor.skipFrom stop depth u us).ahead = [] := by
  induction ts generalizing t u us depth with
  | nil =>
      cases along with
      | last ends =>
          have closes : border.close.isPunctuation .rightParen = true := by
            simp [isPunctuation, border.isClose]
          have notOpens : border.close.isPunctuation .leftParen = false := by
            simp [isPunctuation, border.isClose]
          have notEnd : border.close.isEnd = false := by simp [isEnd, border.isClose]
          cases depth with
          | zero =>
              left
              simpa [Cursor.skipFrom, closes, notOpens, notEnd] using
                Near.along (c := ⟨t, []⟩) (d := ⟨border.close, _⟩) (Along.last ends)
          | succ depth =>
              rcases border.skips stop depth halting with stays | runs
              · left
                simpa [Cursor.skipFrom, closes, notOpens, notEnd, stays] using Near.past ends
              · right
                simpa [Cursor.skipFrom, closes, notOpens, notEnd] using runs
      | next _ _ _ rest => exact absurd rfl rest.ne_nil
  | cons next ts ih =>
      have near : Near border ⟨t, next :: ts⟩ ⟨u, us⟩ := .along along
      cases along with
      | next kind text goesOn rest =>
          cases us with
          | nil => exact absurd rest.length (by simp; omega)
          | cons next' us =>
              have whole : Near border ⟨t, next :: ts⟩ ⟨u, next' :: us⟩ := near
              have notEnd : t.isEnd = false := by simp [isEnd, goesOn]
              have notEnd' : u.isEnd = false := by simp [isEnd, ← kind, goesOn]
              have opens : u.isPunctuation .leftParen = t.isPunctuation .leftParen := by
                simp [isPunctuation, kind]
              have closes : u.isPunctuation .rightParen = t.isPunctuation .rightParen := by
                simp [isPunctuation, kind]
              have halts : stop u = stop t := (halting.blind t u (.inl ⟨kind, text⟩)).symm
              simp only [Cursor.skipFrom, notEnd, notEnd', opens, closes, halts,
                Bool.false_eq_true, if_false]
              split
              · exact ih rest
              · split
                · cases depth with
                  | zero => exact .inl whole
                  | succ depth => exact ih rest
                · split
                  · exact .inl whole
                  · exact ih rest

/-- Where the shorter text is at its end a skip moves nothing, unless it runs to the end. -/
theorem skipUntil_stays {stop : Token → Bool} (halting : Halting stop) (near : Near border c d)
    (ends : c.current.kind = .endOfInput) :
    d.skipUntil stop = d ∨ (d.skipUntil stop).ahead = [] := by
  obtain ⟨t, ts⟩ := c
  obtain ⟨u, us⟩ := d
  rcases near with ⟨⟨-⟩ | ⟨-, -, goesOn, -⟩⟩ | -
  · left
    simp [Cursor.skipUntil, Cursor.skipFrom, isPunctuation, isEnd, border.isClose]
  · exact absurd ends goesOn
  · exact border.skips stop 0 halting

theorem skipUntil {stop : Token → Bool} (halting : Halting stop) (near : Near border c d) :
    Near border (c.skipUntil stop) (d.skipUntil stop) ∨ (d.skipUntil stop).ahead = [] := by
  cases near with
  | along along => exact skipFrom halting along
  | past ends =>
      rcases border.skips stop 0 halting with stays | runs
      · left
        rw [Cursor.skipUntil, Cursor.skipUntil, stays]
        exact .past ends
      · exact .inr runs

theorem skipParenthesized_stays (near : Near border c d) (ends : c.current.kind = .endOfInput) :
    d.skipParenthesized = d := by
  rw [Cursor.skipParenthesized, near.unopened ends, if_neg Bool.false_ne_true]

/-- Past a parenthesis that closes a group in both, or in the longer text only. -/
theorem pastClosing (near : Near border c d) :
    Near border (if c.current.isPunctuation .rightParen then c.advance else c)
      (if d.current.isPunctuation .rightParen then d.advance else d) := by
  by_cases goesOn : c.current.kind = .endOfInput
  · have unclosed : c.current.isPunctuation .rightParen = false := by simp [isPunctuation, goesOn]
    rw [unclosed, if_neg Bool.false_ne_true]
    obtain ⟨t, ts⟩ := c
    obtain ⟨u, us⟩ := d
    rcases near with ⟨ends | ⟨-, -, inside, -⟩⟩ | ends
    · simpa [isPunctuation, border.isClose, Cursor.advance, Cursor.isAtEnd, isEnd] using
        Near.past ends
    · exact absurd goesOn inside
    · simpa [isPunctuation, border.isOpen] using Near.past ends
  · obtain ⟨kind, -⟩ := near.inside goesOn
    have same : d.current.isPunctuation .rightParen = c.current.isPunctuation .rightParen := by
      simp [isPunctuation, kind]
    rw [same]
    split
    · exact near.advance goesOn
    · exact near

theorem skipParenthesized (near : Near border c d) :
    Near border c.skipParenthesized d.skipParenthesized ∨ d.skipParenthesized.ahead = [] := by
  rw [Cursor.skipParenthesized, Cursor.skipParenthesized, ← near.opens]
  by_cases opens : c.current.isPunctuation .leftParen = true
  · have goesOn : c.current.kind ≠ .endOfInput := by
      intro ends
      simp [isPunctuation, ends] at opens
    rw [if_pos opens, if_pos opens]
    rcases (near.advance goesOn).skipUntil halting_never with
      inner | runs
    · exact .inl inner.pastClosing
    · right
      dsimp only [Cursor.skipGroup]
      split
      · exact List.eq_nil_of_length_eq_zero (by
          have shorter := (Cursor.advance_suffix (d.advance.skipUntil fun _ => false)).length_le
          simp only [Cursor.tokens, List.length_cons, runs, List.length_nil] at shorter
          omega)
      · exact runs
  · rw [if_neg opens, if_neg opens]
    exact .inl near

/-! What is looked at ahead. -/

theorem opensQuery (near : Near border c d) : c.opensQuery = d.opensQuery := by
  rw [Cursor.opensQuery, Cursor.opensQuery, near.opens]
  by_cases goesOn : c.current.kind = .endOfInput
  · rw [near.unopened goesOn, Bool.false_and, Bool.false_and]
  · rw [blind_isSelectOrWith _ _ (near.peek goesOn)]

theorem dropWhile_along {ts us : List Token} (along : Along border ts us) :
    (ts.dropWhile (·.isPunctuation .leftParen)).head?.any isSelectOrWith =
      (us.dropWhile (·.isPunctuation .leftParen)).head?.any isSelectOrWith := by
  induction along with
  | last ends =>
      simp [isPunctuation, border.isClose, ends, isSelectOrWith, isKeyword]
      rfl
  | next kind text _ _ ih =>
      simp only [List.dropWhile_cons, isPunctuation, kind] at ih ⊢
      split
      · exact ih
      · simp [isSelectOrWith, isKeyword, kind]

theorem opensQueryDeep (near : Near border c d) : c.opensQueryDeep = d.opensQueryDeep := by
  rw [Cursor.opensQueryDeep, Cursor.opensQueryDeep, near.opens]
  cases near with
  | along along => rw [dropWhile_along along]
  | past ends => rw [(Near.past ends).unopened ends, Bool.false_and, Bool.false_and]

theorem startsQuery (near : Near border c d) : c.startsQuery = d.startsQuery := by
  by_cases goesOn : c.current.kind = .endOfInput
  · have none (e : Cursor) (edge : e.current.kind.isEdge = true) : e.startsQuery = false := by
      unfold Cursor.startsQuery
      unfold TokenKind.isEdge at edge
      split <;> simp_all
    rcases near.meets with ⟨kind, -⟩ | ⟨-, edge⟩
    · rw [none c (by rw [goesOn]; rfl), none d (by rw [← kind, goesOn]; rfl)]
    · rw [none c (by rw [goesOn]; rfl), none d edge]
  · obtain ⟨kind, -⟩ := near.inside goesOn
    have next : ((c.peek 1).kind == .identifier) = ((d.peek 1).kind == .identifier) :=
      (near.peek goesOn).of_kind (f := (· == .identifier))
        (TokenKind.forall_edge rfl rfl rfl rfl rfl)
    unfold Cursor.startsQuery
    rw [kind, next, near.opensQueryDeep]

end Near

end Grammar

end QueryNames
