import QueryNames.Grammar.Script
import QueryNames.Proofs.Grammar.Cursor

/-!
Two cursors over the same tokens, which end under the one and go on behind a semicolon under the
other. Main statements: what is looked at in passing is the same under both, and a movement that may
not pass a semicolon keeps them abreast.
-/

namespace QueryNames

namespace Grammar

/-- The end of the shorter list, and what the longer one has in its place. -/
structure Edge where
  stop : Location
  place : Location
  behind : List Token

namespace Edge

def left (edge : Edge) : Cursor := ⟨.endOfInput edge.stop, []⟩

def right (edge : Edge) : Cursor := ⟨⟨.punctuation .semicolon, ";", edge.place⟩, edge.behind⟩

end Edge

variable {edge : Edge}

/-- The same tokens, up to the edge, before which `depth` groups that are open have to close. -/
inductive Beside (edge : Edge) : Nat → List Token → List Token → Prop
  | last : Beside edge 0 edge.left.tokens edge.right.tokens
  | opening {depth : Nat} {t : Token} {ts us : List Token}
      (kind : t.kind = .punctuation .leftParen) (rest : Beside edge (depth + 1) ts us) :
      Beside edge depth (t :: ts) (t :: us)
  | closing {depth : Nat} {t : Token} {ts us : List Token}
      (kind : t.kind = .punctuation .rightParen) (rest : Beside edge depth ts us) :
      Beside edge (depth + 1) (t :: ts) (t :: us)
  | other {depth : Nat} {t : Token} {ts us : List Token} (goesOn : t.kind ≠ .endOfInput)
      (opens : t.kind ≠ .punctuation .leftParen) (closes : t.kind ≠ .punctuation .rightParen)
      (rest : Beside edge depth ts us) : Beside edge depth (t :: ts) (t :: us)

def Abreast (edge : Edge) (c d : Cursor) : Prop :=
  ∃ depth, Beside edge depth c.tokens d.tokens

namespace Beside

variable {depth : Nat} {ts us : List Token}

theorem length (beside : Beside edge depth ts us) :
    us.length = ts.length + edge.behind.length := by
  induction beside with
  | last => exact Nat.add_comm _ _
  | opening _ _ ih | closing _ _ ih | other _ _ _ _ ih =>
      rw [List.length_cons, List.length_cons, ih]
      omega

theorem exists_cursors (beside : Beside edge depth ts us) :
    ∃ c d : Cursor, ts = c.tokens ∧ us = d.tokens := by
  cases beside with
  | last => exact ⟨edge.left, edge.right, rfl, rfl⟩
  | @opening _ t ts us | @closing _ t ts us | @other _ t ts us =>
      exact ⟨⟨t, ts⟩, ⟨t, us⟩, rfl, rfl⟩

end Beside

namespace Abreast

variable {c d : Cursor}

/-- At the edge, or at the same token with more behind it. -/
theorem view (abreast : Abreast edge c d) :
    (c = edge.left ∧ d = edge.right) ∨
      ∃ t c' d', t.kind ≠ .endOfInput ∧ c = ⟨t, c'.tokens⟩ ∧ d = ⟨t, d'.tokens⟩ ∧
        Abreast edge c' d' := by
  obtain ⟨depth, beside⟩ := abreast
  obtain ⟨t, ts⟩ := c
  obtain ⟨u, us⟩ := d
  cases beside with
  | last => exact .inl ⟨rfl, rfl⟩
  | opening kind rest =>
      obtain ⟨c', d', rfl, rfl⟩ := rest.exists_cursors
      exact .inr ⟨t, c', d', by rw [kind]; nofun, rfl, rfl, _, rest⟩
  | closing kind rest =>
      obtain ⟨c', d', rfl, rfl⟩ := rest.exists_cursors
      exact .inr ⟨t, c', d', by rw [kind]; nofun, rfl, rfl, _, rest⟩
  | other goesOn _ _ rest =>
      obtain ⟨c', d', rfl, rfl⟩ := rest.exists_cursors
      exact .inr ⟨t, c', d', goesOn, rfl, rfl, _, rest⟩

theorem remaining (abreast : Abreast edge c d) :
    d.remaining = c.remaining + edge.behind.length := by
  obtain ⟨depth, beside⟩ := abreast
  have length := beside.length
  simp only [Cursor.tokens, List.length_cons] at length
  simp only [Cursor.remaining]
  omega

/-- A test that does not tell the two tokens at the edge from each other. -/
theorem current {q : Token → α} (abreast : Abreast edge c d)
    (same : q edge.left.current = q edge.right.current) : q c.current = q d.current := by
  rcases abreast.view with ⟨rfl, rfl⟩ | ⟨t, c', d', -, rfl, rfl, -⟩
  · exact same
  · rfl

theorem kind {k : TokenKind} (abreast : Abreast edge c d)
    (same : (edge.left.current.kind == k) = (edge.right.current.kind == k)) :
    (c.current.kind == k) = (d.current.kind == k) :=
  abreast.current (q := fun t => t.kind == k) same

end Abreast

namespace Cursor

theorem advance_step {t : Token} (goesOn : t.kind ≠ .endOfInput) (c : Cursor) :
    advance ⟨t, c.tokens⟩ = c := by
  simp [advance, isAtEnd, Token.isEnd, goesOn, tokens]

theorem peek_step (t : Token) (c : Cursor) : peek ⟨t, c.tokens⟩ 1 = c.current := by
  simp [peek, tokens]

end Cursor

/-- The next `n` tokens stand before the end of input. -/
def Ahead (n : Nat) (c : Cursor) : Prop := ∀ t ∈ c.tokens.take n, t.kind ≠ .endOfInput

namespace Ahead

theorem zero (c : Cursor) : Ahead 0 c := nofun

theorem fewer {n : Nat} {c : Cursor} (ahead : Ahead (n + 1) c) : Ahead n c :=
  fun t member => ahead t ((List.take_prefix_take_left (Nat.le_succ n)).subset member)

theorem goesOn {n : Nat} {c : Cursor} (ahead : Ahead (n + 1) c) : c.current.kind ≠ .endOfInput :=
  ahead c.current List.mem_cons_self

theorem step {n : Nat} {t : Token} {c : Cursor} (goesOn : t.kind ≠ .endOfInput)
    (ahead : Ahead n c) : Ahead (n + 1) ⟨t, c.tokens⟩ :=
  List.forall_mem_cons.2 ⟨goesOn, ahead⟩

theorem tail {n : Nat} {t : Token} {c : Cursor} (ahead : Ahead (n + 1) ⟨t, c.tokens⟩) :
    Ahead n c :=
  (List.forall_mem_cons.1 ahead).2

end Ahead

theorem Abreast.inside {n : Nat} {c d : Cursor} (abreast : Abreast edge c d)
    (ahead : Ahead (n + 1) c) :
    ∃ t c' d', t.kind ≠ .endOfInput ∧ c = ⟨t, c'.tokens⟩ ∧ d = ⟨t, d'.tokens⟩ ∧
      Abreast edge c' d' ∧ Ahead n c' := by
  rcases abreast.view with ⟨rfl, rfl⟩ | ⟨t, c', d', goesOn, rfl, rfl, rest⟩
  · exact absurd rfl ahead.goesOn
  · exact ⟨t, c', d', goesOn, rfl, rfl, rest, ahead.tail⟩

/-! Skipping. -/

namespace Cursor

variable {stop : Token → Bool} {t : Token} (c : Cursor)

theorem skipFrom_opening (kind : t.kind = .punctuation .leftParen) (depth : Nat) :
    skipFrom stop depth t c.tokens = skipFrom stop (depth + 1) c.current c.ahead := by
  simp [tokens, skipFrom, Token.isEnd, Token.isPunctuation, kind]

theorem skipFrom_outer (kind : t.kind = .punctuation .rightParen) :
    skipFrom stop 0 t c.tokens = ⟨t, c.tokens⟩ := by
  simp [tokens, skipFrom, Token.isEnd, Token.isPunctuation, kind]

theorem skipFrom_closing (kind : t.kind = .punctuation .rightParen) (depth : Nat) :
    skipFrom stop (depth + 1) t c.tokens = skipFrom stop depth c.current c.ahead := by
  simp [tokens, skipFrom, Token.isEnd, Token.isPunctuation, kind]

theorem skipFrom_other (goesOn : t.kind ≠ .endOfInput) (opens : t.kind ≠ .punctuation .leftParen)
    (closes : t.kind ≠ .punctuation .rightParen) (depth : Nat) :
    skipFrom stop depth t c.tokens =
      if depth == 0 && stop t then ⟨t, c.tokens⟩ else skipFrom stop depth c.current c.ahead := by
  simp [tokens, skipFrom, Token.isEnd, Token.isPunctuation, goesOn, opens, closes]

theorem skipFrom_stop (halts : stop edge.right.current = true) :
    skipFrom stop 0 edge.right.current edge.right.ahead = edge.right := by
  obtain ⟨stop', place, behind⟩ := edge
  cases behind with
  | nil => rfl
  | cons next behind =>
      simp only [Edge.right] at halts
      simp [Edge.right, skipFrom, Token.isEnd, Token.isPunctuation, halts]

end Cursor

/-- A skip that starts inside of `outer` groups comes to the edge only if there are none, and passes
it only if it does not stop there. -/
theorem Beside.skipFrom {stop : Token → Bool} {open_ outer depth : Nat} {ts us : List Token}
    {c d : Cursor} (beside : Beside edge open_ ts us) (opened : open_ = outer + depth)
    (left : ts = c.tokens) (right : us = d.tokens) :
    Abreast edge (Cursor.skipFrom stop depth c.current c.ahead)
        (Cursor.skipFrom stop depth d.current d.ahead) ∨
      (outer = 0 ∧ stop edge.right.current = false ∧
        Cursor.skipFrom stop depth c.current c.ahead = edge.left) := by
  -- `outer` does not change: a group that opens behind the start is counted by `depth`
  induction beside generalizing outer depth c d with
  | last =>
      obtain rfl : c = edge.left := Cursor.eq_of_tokens left.symm
      obtain rfl : d = edge.right := Cursor.eq_of_tokens right.symm
      obtain ⟨rfl, rfl⟩ : outer = 0 ∧ depth = 0 := by omega
      cases halts : stop edge.right.current with
      | true => exact .inl ⟨0, by rw [Cursor.skipFrom_stop halts]; exact .last⟩
      | false => exact .inr ⟨rfl, rfl, rfl⟩
  | @opening _ t ts us kind rest ih =>
      obtain ⟨c', d', rfl, rfl⟩ := rest.exists_cursors
      obtain rfl : c = ⟨t, c'.tokens⟩ := Cursor.eq_of_tokens left.symm
      obtain rfl : d = ⟨t, d'.tokens⟩ := Cursor.eq_of_tokens right.symm
      rw [Cursor.skipFrom_opening c' kind, Cursor.skipFrom_opening d' kind]
      exact ih (by omega) rfl rfl
  | @closing _ t ts us kind rest ih =>
      obtain ⟨c', d', rfl, rfl⟩ := rest.exists_cursors
      obtain rfl : c = ⟨t, c'.tokens⟩ := Cursor.eq_of_tokens left.symm
      obtain rfl : d = ⟨t, d'.tokens⟩ := Cursor.eq_of_tokens right.symm
      cases depth with
      | zero =>
          rw [Cursor.skipFrom_outer c' kind, Cursor.skipFrom_outer d' kind]
          exact .inl ⟨_, .closing kind rest⟩
      | succ depth =>
          rw [Cursor.skipFrom_closing c' kind, Cursor.skipFrom_closing d' kind]
          exact ih (by omega) rfl rfl
  | @other _ t ts us goesOn opens closes rest ih =>
      obtain ⟨c', d', rfl, rfl⟩ := rest.exists_cursors
      obtain rfl : c = ⟨t, c'.tokens⟩ := Cursor.eq_of_tokens left.symm
      obtain rfl : d = ⟨t, d'.tokens⟩ := Cursor.eq_of_tokens right.symm
      rw [Cursor.skipFrom_other c' goesOn opens closes,
        Cursor.skipFrom_other d' goesOn opens closes]
      split
      · exact .inl ⟨_, .other goesOn opens closes rest⟩
      · exact ih opened rfl rfl

namespace Abreast

variable {c d : Cursor}

theorem skipUntil {stop : Token → Bool} (abreast : Abreast edge c d)
    (halts : stop edge.right.current = true) :
    Abreast edge (c.skipUntil stop) (d.skipUntil stop) := by
  obtain ⟨depth, beside⟩ := abreast
  rcases @Beside.skipFrom edge stop depth depth 0 _ _ c d beside rfl rfl rfl with
    kept | ⟨-, passes, -⟩
  · exact kept
  · rw [halts] at passes
    cases passes

/-- A group that does not close is skipped up to the edge. -/
theorem skipGroup (abreast : Abreast edge c d) :
    Abreast edge c.skipGroup d.skipGroup ∨ c.skipGroup = edge.left := by
  obtain ⟨depth, beside⟩ := abreast
  exact (@Beside.skipFrom edge _ depth depth 0 _ _ c d beside rfl rfl rfl).imp_right fun h => h.2.2

theorem advance (abreast : Abreast edge c d) (ahead : Ahead 1 c) :
    Abreast edge c.advance d.advance := by
  obtain ⟨t, c', d', goesOn, rfl, rfl, rest, -⟩ := abreast.inside ahead
  rwa [Cursor.advance_step goesOn, Cursor.advance_step goesOn]

/-- What a test finds at one of the two places and not at the edge is passed in both. -/
theorem advance_if {q : Token → Bool} (abreast : Abreast edge c d)
    (ends : q edge.left.current = false) (ends' : q edge.right.current = false) :
    Abreast edge (if q c.current then c.advance else c) (if q d.current then d.advance else d) := by
  rcases abreast.view with ⟨rfl, rfl⟩ | ⟨t, c', d', goesOn, rfl, rfl, rest⟩
  · rwa [ends, ends']
  · dsimp only
    split
    · rwa [Cursor.advance_step goesOn, Cursor.advance_step goesOn]
    · exact abreast

theorem skipParenthesized (abreast : Abreast edge c d) :
    Abreast edge c.skipParenthesized d.skipParenthesized := by
  have same : c.current.isPunctuation .leftParen = d.current.isPunctuation .leftParen :=
    abreast.current rfl
  unfold Cursor.skipParenthesized
  rw [← same]
  by_cases opens : c.current.isPunctuation .leftParen = true
  · rw [if_pos opens, if_pos opens]
    obtain ⟨depth, beside⟩ := abreast
    obtain ⟨t, ts⟩ := c
    obtain ⟨u, us⟩ := d
    have kind : t.kind = .punctuation .leftParen := Token.isPunctuation_iff.1 opens
    have goesOn : t.kind ≠ .endOfInput := by rw [kind]; nofun
    cases beside with
    | last => cases opens
    | closing other _ => cases kind.symm.trans other
    | other _ other _ _ => exact absurd kind other
    | opening _ rest =>
        obtain ⟨c', d', rfl, rfl⟩ := rest.exists_cursors
        rw [Cursor.advance_step goesOn, Cursor.advance_step goesOn]
        have inner : Abreast edge c'.skipGroup d'.skipGroup :=
          (@Beside.skipFrom edge _ (depth + 1) (depth + 1) 0 _ _ c' d' rest rfl rfl
            rfl).resolve_right nofun
        exact inner.advance_if rfl rfl
  · rw [if_neg opens, if_neg opens]
    exact abreast

end Abreast

/-! What is looked at ahead. -/

theorem Beside.selects {depth : Nat} {ts us : List Token} (beside : Beside edge depth ts us) :
    (ts.dropWhile (·.isPunctuation .leftParen)).head?.any isSelectOrWith =
      (us.dropWhile (·.isPunctuation .leftParen)).head?.any isSelectOrWith := by
  induction beside with
  | last => rfl
  | opening _ _ ih | closing _ _ ih | other _ _ _ _ ih =>
      rw [List.dropWhile_cons, List.dropWhile_cons]
      split
      · exact ih
      · rfl

theorem Edge.noStar (edge : Edge) : startsWithQualifiedStar edge.right.tokens = false := by
  obtain ⟨stop, place, _ | ⟨t, _ | ⟨u, ts⟩⟩⟩ := edge <;> rfl

namespace Abreast

variable {c d : Cursor}

theorem opensQuery (abreast : Abreast edge c d) : c.opensQuery = d.opensQuery := by
  rcases abreast.view with ⟨rfl, rfl⟩ | ⟨t, c', d', goesOn, rfl, rfl, rest⟩
  · rfl
  · have next : isSelectOrWith c'.current = isSelectOrWith d'.current := rest.current rfl
    rw [Cursor.opensQuery, Cursor.opensQuery, Cursor.peek_step, Cursor.peek_step, next]

theorem opensQueryDeep (abreast : Abreast edge c d) : c.opensQueryDeep = d.opensQueryDeep := by
  have same : c.current.isPunctuation .leftParen = d.current.isPunctuation .leftParen :=
    abreast.current rfl
  obtain ⟨depth, beside⟩ := abreast
  rw [Cursor.opensQueryDeep, Cursor.opensQueryDeep, same, beside.selects]

theorem startsQuery (abreast : Abreast edge c d) : c.startsQuery = d.startsQuery := by
  have deep := abreast.opensQueryDeep
  rcases abreast.view with ⟨rfl, rfl⟩ | ⟨t, c', d', goesOn, rfl, rfl, rest⟩
  · rfl
  · have next : (c'.current.kind == .identifier) = (d'.current.kind == .identifier) :=
      rest.kind (k := .identifier) rfl
    unfold Cursor.startsQuery
    rw [Cursor.peek_step, Cursor.peek_step, next, deep]

theorem startsWithQualifiedStar (abreast : Abreast edge c d) :
    startsWithQualifiedStar c.tokens = startsWithQualifiedStar d.tokens := by
  induction length : c.remaining using Nat.strongRecOn generalizing c d with
  | ind n ih =>
      rcases abreast.view with ⟨rfl, rfl⟩ | ⟨name, c₁, d₁, goesOn, rfl, rfl, rest⟩
      · exact edge.noStar.symm
      · rcases rest.view with ⟨rfl, rfl⟩ | ⟨period, c₂, d₂, goesOn', rfl, rfl, rest'⟩
        · cases behind : edge.behind with
          | nil =>
              simp [Cursor.tokens, Edge.left, Edge.right, behind, Grammar.startsWithQualifiedStar]
          | cons t ts =>
              simp [Cursor.tokens, Edge.left, Edge.right, behind, Grammar.startsWithQualifiedStar,
                Token.isPunctuation]
        · have shorter : c₂.remaining < n := by
            simp only [Cursor.remaining, Cursor.tokens, List.length_cons] at length ⊢
            omega
          have star : (c₂.current.kind == .star) = (d₂.current.kind == .star) :=
            rest'.kind (k := .star) rfl
          have further := ih _ shorter rest' rfl
          simp only [Cursor.tokens] at further
          simp only [Cursor.tokens, Grammar.startsWithQualifiedStar, star, further]

end Abreast

end Grammar

end QueryNames
