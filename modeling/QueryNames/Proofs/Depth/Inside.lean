import QueryNames.Grammar.Query
import QueryNames.Proofs.Grammar.Cursor

/-!
Parentheses ahead of a cursor. A stretch of tokens ends where a `FROM` clause begins or with the
group around it, and a cursor in it stands inside of so many groups as are still to be closed. Main
statements: passing a token that is no parenthesis keeps the depth, and so does skipping.
-/

namespace QueryNames

def Token.isParen (t : Token) : Bool := t.isPunctuation .leftParen || t.isPunctuation .rightParen

/-- Neither a parenthesis nor the beginning of a `FROM` clause. -/
def TokenKind.isPlain (k : TokenKind) : Bool :=
  k != .punctuation .leftParen && k != .punctuation .rightParen && k != .keyword .from

theorem isPlain_keyword {k : Keyword} (other : k ≠ .from) :
    (TokenKind.keyword k).isPlain = true := by
  simpa [TokenKind.isPlain] using other

theorem isPlain_eq_false {k : TokenKind} (other : k.isPlain = false) :
    k = .punctuation .leftParen ∨ k = .punctuation .rightParen ∨ k = .keyword .from := by
  simp only [TokenKind.isPlain, Bool.and_eq_false_iff, bne_eq_false_iff_eq] at other
  rcases other with (left | right) | from_
  · exact .inl left
  · exact .inr (.inl right)
  · exact .inr (.inr from_)

theorem isParen_eq_false {t : Token} {k : TokenKind} (is : t.kind = k) (plain : k.isPlain = true) :
    t.isParen = false := by
  simp_all [TokenKind.isPlain, Token.isParen, Token.isPunctuation]

theorem ne_from {t : Token} {k : TokenKind} (is : t.kind = k) (plain : k.isPlain = true) :
    t.kind ≠ .keyword .from := by
  simp_all [TokenKind.isPlain]

/-- The names of casts; with an opening parenthesis behind it such a name begins a cast. -/
def Token.namesCast (t : Token) : Bool :=
  t.isKeyword .convert ||
    (t.isPlainName && (t.isWord "CAST" || t.isWord "TRY_CAST" || t.isWord "TRY_CONVERT"))

namespace Grammar

def opensCast : List Token → Bool
  | t :: next :: _ => t.namesCast && next.isPunctuation .leftParen
  | _ => false

/-- What stands behind a stretch of tokens, and whether the casts that are read in it are complete.
That is a `FROM` clause, or anything at all behind a group around the stretch. -/
structure Stretch where
  sound : Prop
  grouped : Prop
  first : Token
  behind : List Token
  isFrom : ¬grouped → first.kind = .keyword .from
  closed : Closed (first :: behind)

/-- Up to the end of the stretch `depth` more groups are closed than opened. Outside of all of them
nothing ends a list item. -/
inductive Inside (stretch : Stretch) : (depth : Nat) → List Token → Prop
  | last : Inside stretch 0 (stretch.first :: stretch.behind)
  | opening {t : Token} {ts : List Token} {depth : Nat} (kind : t.kind = .punctuation .leftParen)
      (rest : Inside stretch (depth + 1) ts) : Inside stretch depth (t :: ts)
  | closing {t : Token} {ts : List Token} {depth : Nat} (kind : t.kind = .punctuation .rightParen)
      (rest : Inside stretch depth ts) : Inside stretch (depth + 1) (t :: ts)
  | other {t : Token} {ts : List Token} {depth : Nat} (plain : t.isParen = false)
      (goesOn : t.isEnd = false) (stays : depth = 0 → endsItem t = false)
      (rest : Inside stretch depth ts) : Inside stretch depth (t :: ts)

namespace Inside

variable {stretch : Stretch} {depth : Nat} {t : Token} {ts : List Token}

theorem ne_nil (inside : Inside stretch depth ts) : ts ≠ [] := by
  cases inside <;> exact List.cons_ne_nil _ _

theorem closed (inside : Inside stretch depth ts) : Closed ts := by
  induction inside with
  | last => exact stretch.closed
  | opening _ _ ih => exact ih.cons _
  | closing _ _ ih => exact ih.cons _
  | other _ _ _ _ ih => exact ih.cons _

theorem leave (inside : Inside stretch (depth + 1) (t :: ts))
    (closes : t.kind = .punctuation .rightParen) : Inside stretch depth ts := by
  cases inside with
  | opening kind _ => simp [kind] at closes
  | closing _ rest => exact rest
  | other plain _ _ _ => simp [Token.isParen, Token.isPunctuation, closes] at plain

/-! Outside of all groups only a `FROM` clause may be looked at. -/

section

variable (deep : stretch.grouped → depth ≠ 0)

include deep

theorem isEnd_eq_false (inside : Inside stretch depth (t :: ts)) : t.isEnd = false := by
  cases inside with
  | last => simp [Token.isEnd, stretch.isFrom fun grouped => deep grouped rfl]
  | opening kind _ => simp [Token.isEnd, kind]
  | closing kind _ => simp [Token.isEnd, kind]
  | other _ goesOn _ _ => exact goesOn

theorem behind_ne_nil (inside : Inside stretch depth (t :: ts)) : ts ≠ [] := by
  rintro rfl
  have ends : t.isEnd = true := inside.closed
  rw [inside.isEnd_eq_false deep] at ends
  contradiction

theorem enter (inside : Inside stretch depth (t :: ts))
    (opens : t.kind = .punctuation .leftParen) : Inside stretch (depth + 1) ts := by
  cases inside with
  | last => simp [stretch.isFrom fun grouped => deep grouped rfl] at opens
  | opening _ rest => exact rest
  | closing kind _ => simp [kind] at opens
  | other plain _ _ _ => simp [Token.isParen, Token.isPunctuation, opens] at plain

theorem pass (inside : Inside stretch depth (t :: ts)) (plain : t.isParen = false)
    (before : depth = 0 → t.kind ≠ .keyword .from) : Inside stretch depth ts := by
  cases inside with
  | last => exact absurd (stretch.isFrom fun grouped => deep grouped rfl) (before rfl)
  | opening kind _ => simp [Token.isParen, Token.isPunctuation, kind] at plain
  | closing kind _ => simp [Token.isParen, Token.isPunctuation, kind] at plain
  | other _ _ _ rest => exact rest

end

/-- Outside of all groups nothing but the end of the stretch ends an item. -/
theorem last_of_endsItem (inside : Inside stretch 0 (t :: ts)) (ends : endsItem t = true) :
    t :: ts = stretch.first :: stretch.behind := by
  cases inside with
  | last => rfl
  | opening kind _ => simp [endsItem, endsClause, Token.isPunctuation, kind] at ends
  | other _ _ stays _ =>
      rw [stays rfl] at ends
      contradiction

end Inside

/-! Movements. -/

namespace Cursor

variable {stretch : Stretch} {depth : Nat}

section

variable (deep : stretch.grouped → depth ≠ 0)

include deep

theorem tokens_advance_inside {c : Cursor} (inside : Inside stretch depth c.tokens) :
    c.advance.tokens = c.ahead := by
  obtain ⟨t, ahead⟩ := c
  have goesOn : t.isEnd = false := inside.isEnd_eq_false deep
  cases ahead with
  | nil => exact absurd rfl (inside.behind_ne_nil deep)
  | cons next ahead => simp [advance, isAtEnd, goesOn, tokens]

theorem current_advance_inside {c : Cursor} (inside : Inside stretch depth c.tokens) :
    c.advance.current = c.peek 1 := by
  have step := tokens_advance_inside deep inside
  obtain ⟨t, ahead⟩ := c
  cases ahead with
  | nil => exact absurd rfl (inside.behind_ne_nil deep)
  | cons next ahead => exact (List.cons.inj step).1

theorem opensCast_tokens {c : Cursor} (inside : Inside stretch depth c.tokens) :
    opensCast c.tokens = (c.current.namesCast && (c.peek 1).isPunctuation .leftParen) := by
  obtain ⟨t, ahead⟩ := c
  cases ahead with
  | nil => exact absurd rfl (inside.behind_ne_nil deep)
  | cons next ahead => rfl

/-- A skip that stops where the stretch ends stays in the group where it begins. It ends at a token
that stops it or where that group ends. -/
theorem skipFrom_ends {stop : Token → Bool} {open_ : Nat} {t : Token} {ahead : List Token}
    (inside : Inside stretch (depth + open_) (t :: ahead))
    (stops : depth = 0 → ∀ t : Token, t.kind = .keyword .from → stop t = true) :
    Inside stretch depth (skipFrom stop open_ t ahead).tokens ∧
      (stop (skipFrom stop open_ t ahead).current = true ∨
        (skipFrom stop open_ t ahead).current.kind = .punctuation .rightParen) := by
  have deeper (open_ : Nat) (grouped : stretch.grouped) : depth + open_ ≠ 0 := by
    have := deep grouped
    omega
  induction ahead generalizing t open_ with
  | nil => exact absurd rfl (inside.behind_ne_nil (deeper open_))
  | cons next ahead ih =>
      have goesOn := inside.isEnd_eq_false (deeper open_)
      unfold skipFrom
      rw [if_neg (by simp [goesOn])]
      by_cases opens : t.kind = .punctuation .leftParen
      · rw [if_pos (by simpa [Token.isPunctuation] using opens)]
        exact ih (inside.enter (deeper open_) opens)
      · rw [if_neg (by simpa [Token.isPunctuation] using opens)]
        by_cases closes : t.kind = .punctuation .rightParen
        · rw [if_pos (by simpa [Token.isPunctuation] using closes)]
          cases open_ with
          | zero => exact ⟨inside, .inr closes⟩
          | succ open_ => exact ih (Inside.leave inside closes)
        · rw [if_neg (by simpa [Token.isPunctuation] using closes)]
          have plain : t.isParen = false := by simp [Token.isParen, Token.isPunctuation, *]
          by_cases halts : (open_ == 0 && stop t) = true
          · obtain ⟨rfl, found⟩ : open_ = 0 ∧ stop t = true := by simpa using halts
            rw [if_pos halts]
            exact ⟨inside, .inl found⟩
          · rw [if_neg halts]
            refine ih (inside.pass (deeper open_) plain fun none kind => halts ?_)
            obtain ⟨rfl, rfl⟩ : depth = 0 ∧ open_ = 0 := by omega
            simpa using stops rfl t kind

theorem skipUntil_inside {stop : Token → Bool} {c : Cursor}
    (inside : Inside stretch depth c.tokens)
    (stops : depth = 0 → ∀ t : Token, t.kind = .keyword .from → stop t = true) :
    Inside stretch depth (c.skipUntil stop).tokens :=
  (@skipFrom_ends stretch depth deep stop 0 _ _ inside stops).1

theorem skipUntil_stops {stop : Token → Bool} {c : Cursor}
    (inside : Inside stretch depth c.tokens)
    (stops : depth = 0 → ∀ t : Token, t.kind = .keyword .from → stop t = true) :
    stop (c.skipUntil stop).current = true ∨
      (c.skipUntil stop).current.kind = .punctuation .rightParen :=
  (@skipFrom_ends stretch depth deep stop 0 _ _ inside stops).2

end

/-- Inside of a group the rest of it can be skipped, up to the parenthesis that closes it. -/
theorem skipGroup_closes {c : Cursor} (inside : Inside stretch (depth + 1) c.tokens) :
    c.skipGroup.current.kind = .punctuation .rightParen := by
  rcases @skipUntil_stops stretch (depth + 1) (fun _ => Nat.succ_ne_zero depth)
      (fun _ => false) c inside (by simp) with never | closes
  · contradiction
  · exact closes

theorem skipGroup_inside {c : Cursor} (inside : Inside stretch (depth + 1) c.tokens) :
    Inside stretch (depth + 1) c.skipGroup.tokens :=
  skipUntil_inside (fun _ => Nat.succ_ne_zero depth) inside fun none => by omega

theorem skipParenthesized_inside (deep : stretch.grouped → depth ≠ 0) {c : Cursor}
    (inside : Inside stretch depth c.tokens) :
    Inside stretch depth c.skipParenthesized.tokens := by
  by_cases opens : c.current.kind = .punctuation .leftParen
  · have within : Inside stretch (depth + 1) c.advance.tokens := by
      rw [tokens_advance_inside deep inside]
      exact inside.enter deep opens
    have group := skipGroup_inside within
    have step := tokens_advance_inside (fun _ => Nat.succ_ne_zero depth) group
    simpa [skipParenthesized, Token.isPunctuation, opens, skipGroup_closes within, step] using
      group.leave (skipGroup_closes within)
  · simpa [skipParenthesized, Token.isPunctuation, opens] using inside

end Cursor

end Grammar

end QueryNames
