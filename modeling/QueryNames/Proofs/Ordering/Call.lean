import QueryNames.Proofs.Ordering.Items
import QueryNames.Proofs.Written.Reading

/-!
Orderings behind the arguments of a call. Main statements: the ordering of a window is read, and the
one behind `WITHIN GROUP` is passed over, together with all that follows if a group is left open in
it.
-/

namespace QueryNames.Grammar

open Grammar.Parser

namespace Cursor

variable {opening closing : Token} {body : List Token} {left : Nat}

/-- From its opening parenthesis on, a group is passed over as a whole. -/
theorem skipParenthesized_closed (opens : opening.kind = .punctuation .leftParen)
    (goesOn : ∀ t ∈ body, t.isEnd = false) (balanced : opened 0 body = some 0)
    (closes : closing.kind = .punctuation .rightParen) (c : Cursor) :
    skipParenthesized ⟨opening, body ++ closing :: c.tokens⟩ = c := by
  obtain ⟨d, behind⟩ := exists_tokens
    (List.append_ne_nil_of_right_ne_nil body (List.cons_ne_nil closing c.tokens))
  have passed : d.skipGroup = ⟨closing, c.tokens⟩ := by
    have skip := @skipFrom_append d ⟨closing, c.tokens⟩ body 0 0 (fun _ => false) behind balanced
      goesOn fun _ _ => rfl
    exact skip.trans (skipFrom_outer c closes)
  rw [← behind, skipParenthesized, Token.isPunctuation_iff.2 opens, if_pos rfl,
    advance_step (by rw [opens]; decide)]
  dsimp only
  rw [passed, if_pos (Token.isPunctuation_iff.2 closes), advance_step (by rw [closes]; decide)]

/-- Where a group is left open in it, so is everything up to the end of input. -/
theorem skipParenthesized_open {stop : Token} (opens : opening.kind = .punctuation .leftParen)
    (goesOn : ∀ t ∈ body, t.isEnd = false) (unclosed : opened 0 body = some left)
    (ends : stop.kind = .endOfInput) :
    skipParenthesized ⟨opening, body ++ [stop]⟩ = ⟨stop, []⟩ := by
  obtain ⟨d, behind⟩ := exists_tokens
    (List.append_ne_nil_of_right_ne_nil body (List.cons_ne_nil stop []))
  have passed : d.skipGroup = ⟨stop, []⟩ :=
    @skipFrom_append d ⟨stop, []⟩ body 0 left (fun _ => false) behind unclosed goesOn fun _ _ => rfl
  have noClosing : stop.isPunctuation .rightParen = false := by simp [Token.isPunctuation, ends]
  rw [← behind, skipParenthesized, Token.isPunctuation_iff.2 opens, if_pos rfl,
    advance_step (by rw [opens]; decide)]
  dsimp only
  rw [passed, noClosing, if_neg Bool.false_ne_true]

end Cursor

namespace Parser

variable {inner : Level} {name : QualifiedName} {list : List Expression} {distinct : Bool}
  {s : State} {us : List Token} {items : List OrderItem} {opening order word closing : Token}
  {follow : Token → Prop}

/-- A window of an ordering alone. -/
theorem window_yields (opens : opening.kind = .punctuation .leftParen)
    (isOrder : order.kind = .keyword .order) (isBy : word.kind = .keyword .by)
    (ordered : Yields (orderList inner) us items (·.kind = .punctuation .rightParen))
    (closes : closing.kind = .punctuation .rightParen) :
    Yields (window inner) (opening :: order :: word :: (us ++ [closing])) ⟨[], items⟩ follow := by
  intro s follows
  let behind := s.prepend (order :: word :: (us ++ [closing]))
  have opened : requirePunctuation .leftParen (behind.prepend [opening]) = (some (), behind) := by
    rw [requirePunctuation, bind_some (acceptPunctuation_prepend opens)]
    rfl
  have noPartition : acceptWord "PARTITION" behind = (some false, behind) :=
    acceptWord_absent isOrder (by decide)
  have items_ : onlyIf true (do requireKeyword .by; orderList inner)
      (s.prepend (word :: (us ++ [closing]))) = (some (some items), s.prepend [closing]) := by
    have list : (do requireKeyword .by; orderList inner : Parser (List OrderItem))
        (s.prepend (word :: (us ++ [closing]))) = (some items, s.prepend [closing]) := by
      rw [bind_some (requireKeyword_prepend isBy)]
      exact ordered.before (show Next [closing] follow _ from closes) follows
    rw [onlyIf, if_pos rfl, attempt, list]
  have noFrame : (closing.isWord "ROWS" || closing.isWord "RANGE") = false := by
    simp [Token.isWord, closes]
  have still {α : Type} (p : Parser α) (s : State) : (onlyIf false p) s = (some none, s) := rfl
  have same : s.prepend (opening :: order :: word :: (us ++ [closing])) =
      behind.prepend [opening] := by
    rw [State.prepend_prepend, List.singleton_append]
  rw [same, window, bind_some opened, bind_some noPartition, bind_some (still _ _),
    bind_some (acceptKeyword_prepend isOrder), bind_some items_, bind_check,
    State.current_prepend_cons, noFrame, bind_some (still _ _),
    bind_some (closeParen_prepend closes)]
  rfl

theorem callTail_over {overWord : Token} {ts : List Token} {orders : Window}
    (isOver : overWord.kind = .keyword .over)
    (windowed : Yields (window inner) ts orders follow) :
    Yields (callTail inner name list distinct) (overWord :: ts)
      (.function name list distinct (some orders)) follow := by
  intro s follows
  have noWithin : acceptWord "WITHIN" (s.prepend (overWord :: ts)) =
      (some false, s.prepend (overWord :: ts)) := acceptWord_absent isOver (by decide)
  have still {α : Type} (p : Parser α) (s : State) : (onlyIf false p) s = (some none, s) := rfl
  rw [callTail, bind_some noWithin, bind_some (still _ _),
    bind_some (acceptKeyword_prepend isOver), if_pos rfl, bind_some (windowed s follows)]
  rfl

/-- The ordering behind `WITHIN GROUP` leaves nothing in the tree. -/
theorem callTail_within {within group : Token} {c : Cursor} {reported : List Diagnostic}
    (isWithin : within.isWord "WITHIN" = true) (isGroup : group.kind = .keyword .group)
    (noOver : c.skipParenthesized.current.kind ≠ .keyword .over) :
    callTail inner name list distinct ((State.mk c reported).prepend [within, group]) =
      (some (.function name list distinct none), ⟨c.skipParenthesized, reported⟩) := by
  have goesOn : within.kind ≠ .endOfInput := by
    rw [Token.kind_of_isWord isWithin]
    decide
  have skipped : onlyIf true (do let _ ← acceptKeyword .group; skipParenthesized)
      ((State.mk c reported).prepend [group]) =
        (some (some ()), ⟨c.skipParenthesized, reported⟩) := by
    have passes : (do let _ ← acceptKeyword .group; skipParenthesized : Parser Unit)
        ((State.mk c reported).prepend [group]) = (some (), ⟨c.skipParenthesized, reported⟩) := by
      rw [bind_some (acceptKeyword_prepend isGroup)]
      rfl
    rw [onlyIf, if_pos rfl, attempt, passes]
  have noWindow : acceptKeyword .over ⟨c.skipParenthesized, reported⟩ =
      (some false, ⟨c.skipParenthesized, reported⟩) := acceptKeyword_absent rfl noOver
  rw [callTail, acceptWord, bind_some (accept_prepend goesOn isWithin), bind_some skipped,
    bind_some noWindow, if_neg Bool.false_ne_true]
  rfl

end Parser

end QueryNames.Grammar
