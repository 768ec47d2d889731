import QueryNames.Grammar.Cursor

/-!
Token lists that close with an end of input. Main statement: a cursor over such a list, unless it
is at an end, steps over its current token.
-/

namespace QueryNames.Grammar

/-- The last token is an end of input. -/
def Closed (tokens : List Token) : Prop := tokens.getLast?.any (·.isEnd) = true

theorem Closed.of_suffix {tail tokens : List Token} (closed : Closed tokens)
    (suffix : tail <:+ tokens) (nonempty : tail ≠ []) : Closed tail := by
  obtain ⟨front, rfl⟩ := suffix
  cases last : tail.getLast? with
  | none => exact absurd (List.getLast?_eq_none_iff.1 last) nonempty
  | some stop => simpa [Closed, last] using closed

theorem Closed.ne_nil {tokens : List Token} (closed : Closed tokens) : tokens ≠ [] := by
  rintro rfl
  simp [Closed] at closed

theorem Closed.cons {tokens : List Token} (closed : Closed tokens) (t : Token) :
    Closed (t :: tokens) := by
  have nonempty := closed.ne_nil
  cases tokens with
  | nil => contradiction
  | cons next tokens => simpa [Closed] using closed

theorem Closed.append {tokens : List Token} (closed : Closed tokens) (front : List Token) :
    Closed (front ++ tokens) := by
  induction front with
  | nil => exact closed
  | cons t front ih => exact ih.cons t

theorem closed_concat (front : List Token) {stop : Token} (ends : stop.isEnd = true) :
    Closed (front ++ [stop]) := by
  simp [Closed, ends]

namespace Cursor

@[simp] theorem tokens_ne_nil (c : Cursor) : c.tokens ≠ [] := List.cons_ne_nil _ _

theorem exists_tokens {tokens : List Token} (nonempty : tokens ≠ []) :
    ∃ c : Cursor, c.tokens = tokens := by
  cases tokens with
  | nil => contradiction
  | cons t ts => exact ⟨⟨t, ts⟩, rfl⟩

theorem eq_of_tokens {c d : Cursor} (same : c.tokens = d.tokens) : c = d := by
  obtain ⟨t, ts⟩ := c
  obtain ⟨u, us⟩ := d
  obtain ⟨rfl, rfl⟩ := List.cons.inj same
  rfl

theorem closed_ne_nil (tokens : List Token) : closed tokens ≠ [] := by
  unfold closed
  split
  · simp
  · rename_i last found
    split
    · intro empty
      simp [empty] at found
    · simp

theorem tokens_ofTokens (tokens : List Token) : (ofTokens tokens).tokens = closed tokens := by
  unfold ofTokens
  split
  · rename_i empty
    exact absurd empty (closed_ne_nil tokens)
  · rename_i split
    rw [split]
    rfl

theorem closed_ofTokens (tokens : List Token) : Closed (ofTokens tokens).tokens := by
  rw [tokens_ofTokens, closed]
  split
  · simp [Closed]
  · rename_i last found
    split
    · rename_i ends
      simpa [Closed, found] using ends
    · exact closed_concat tokens rfl

theorem ofTokens_closed {t : Token} {ahead : List Token}
    (closed : Closed (t :: ahead)) : ofTokens (t :: ahead) = ⟨t, ahead⟩ := by
  have same : Cursor.closed (t :: ahead) = t :: ahead := by
    unfold Cursor.closed
    split
    · rename_i none_
      simp at none_
    · rename_i last found
      have ends : last.isEnd = true := by simpa [Closed, found] using closed
      rw [if_pos ends]
  rw [ofTokens, same]

theorem ofTokens_tokens {c : Cursor} (closed : Closed c.tokens) : ofTokens c.tokens = c :=
  ofTokens_closed closed

theorem tokens_ofTokens_closed {tokens : List Token} (closed : Closed tokens) :
    (ofTokens tokens).tokens = tokens := by
  cases tokens with
  | nil => cases closed
  | cons t tokens =>
      rw [ofTokens_closed closed]
      rfl

/-- Only an end of input is put behind the tokens. -/
theorem filter_tokens_ofTokens (tokens : List Token) :
    (ofTokens tokens).tokens.filter (!·.isEnd) = tokens.filter (!·.isEnd) := by
  rw [tokens_ofTokens, closed]
  split
  · rename_i empty
    simp [List.getLast?_eq_none_iff.1 empty]
  · split
    · rfl
    · simp

theorem tokens_advance {c : Cursor} (closed : Closed c.tokens) (inside : c.isAtEnd = false) :
    c.tokens = c.current :: c.advance.tokens := by
  obtain ⟨current, ahead⟩ := c
  cases ahead with
  | nil =>
      have ends : current.isEnd = true := by simpa [Closed, tokens] using closed
      rw [isAtEnd, ends] at inside
      contradiction
  | cons next ahead => simp [tokens, advance, inside]

theorem isAtEnd_eq_false {c : Cursor} {kind : TokenKind} (h : c.current.kind = kind)
    (inside : kind ≠ .endOfInput) : c.isAtEnd = false := by
  simp [isAtEnd, Token.isEnd, h, inside]

/-- A skip ends at the end of input, at the end of the group around it or where it is to stop. -/
theorem skipFrom_halts (stop : Token → Bool) (depth : Nat) {t : Token} {ahead : List Token}
    (closed : Closed (t :: ahead)) :
    (skipFrom stop depth t ahead).current.isEnd = true ∨
      (skipFrom stop depth t ahead).current.isPunctuation .rightParen = true ∨
      stop (skipFrom stop depth t ahead).current = true := by
  induction ahead generalizing t depth with
  | nil =>
      left
      simpa [Closed, skipFrom] using closed
  | cons next ahead ih =>
      have behind : Closed (next :: ahead) :=
        closed.of_suffix (List.suffix_cons t _) (List.cons_ne_nil _ _)
      unfold skipFrom
      split
      · rename_i ends
        exact .inl ends
      · split
        · exact ih _ behind
        · split
          · rename_i closes
            cases depth with
            | zero => exact .inr (.inl closes)
            | succ depth => exact ih _ behind
          · split
            · rename_i stops
              exact .inr (.inr (Bool.and_eq_true_iff.1 stops).2)
            · exact ih _ behind

theorem skipParenthesized_suffix (c : Cursor) : c.skipParenthesized.tokens <:+ c.tokens := by
  simp only [skipParenthesized]
  have inner : c.advance.skipGroup.tokens <:+ c.tokens :=
    (skipUntil_suffix _ _).trans (advance_suffix c)
  split
  · split
    · exact (advance_suffix _).trans inner
    · exact inner
  · exact List.suffix_rfl

end Cursor

/-- The tokens ahead of the cursor, as far as they are known and the input goes. -/
def Seen : List Token → Cursor → Prop
  | [], _ => True
  | t :: ts, c => c.current = t ∧ (t.isEnd = false → Seen ts c.advance)

theorem seen_peek (c : Cursor) : Seen [c.current, c.peek 1] c := by
  obtain ⟨t, ahead⟩ := c
  refine ⟨rfl, fun goesOn => ⟨?_, fun _ => trivial⟩⟩
  cases ahead with
  | nil => simp [Cursor.advance, Cursor.peek, Cursor.tokens]
  | cons next ahead => simp_all [Cursor.advance, Cursor.isAtEnd, Cursor.peek, Cursor.tokens]

end QueryNames.Grammar
