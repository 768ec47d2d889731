import QueryNames.Proofs.Grammar.Absent
import QueryNames.Proofs.Grammar.Cursor

/-!
Reading tokens that are known. A parser yields `ts` as `a` if, with `ts` put before any place that
may follow, it comes to that place with `a` and without a complaint.
-/

namespace QueryNames.Grammar

def Cursor.prepend : List Token → Cursor → Cursor
  | [], c => c
  | t :: ts, c => ⟨t, (prepend ts c).tokens⟩

def State.prepend (ts : List Token) (s : State) : State :=
  { s with cursor := s.cursor.prepend ts }

namespace State

variable {s : State} {t : Token} {ts us : List Token}

@[simp] theorem prepend_nil : s.prepend [] = s := rfl

@[simp] theorem prepend_prepend : (s.prepend us).prepend ts = s.prepend (ts ++ us) := by
  induction ts with
  | nil => rfl
  | cons t ts ih =>
      have cursors := congrArg State.cursor ih
      simp only [prepend] at cursors
      simp [prepend, Cursor.prepend, cursors]

@[simp] theorem current_prepend_cons : (s.prepend (t :: ts)).cursor.current = t := rfl

@[simp] theorem peek_prepend_cons :
    (s.prepend (t :: ts)).cursor.peek 1 = (s.prepend ts).cursor.current := rfl

@[simp] theorem reported_prepend : (s.prepend ts).reported = s.reported := rfl

@[simp] theorem tokens_prepend : (s.prepend ts).cursor.tokens = ts ++ s.cursor.tokens := by
  induction ts with
  | nil => rfl
  | cons t ts ih => exact congrArg (t :: ·) ih

theorem prepend_last {stop : Token} {reported : List Diagnostic} :
    State.prepend (t :: ts) ⟨⟨stop, []⟩, reported⟩ = ⟨⟨t, ts ++ [stop]⟩, reported⟩ :=
  congrArg (fun ahead => State.mk ⟨t, ahead⟩ reported) (@tokens_prepend ⟨⟨stop, []⟩, reported⟩ ts)

theorem advance_prepend_cons (inside : t.kind ≠ .endOfInput) :
    (s.prepend (t :: ts)).cursor.advance = (s.prepend ts).cursor := by
  have stays : t.isEnd = false := by simpa [Token.isEnd] using inside
  simp only [Cursor.advance, Cursor.isAtEnd, current_prepend_cons, stays]
  rfl

theorem remaining_prepend : (s.prepend ts).remaining = ts.length + s.remaining := by
  have lengths := congrArg List.length (@tokens_prepend s ts)
  simp only [Cursor.tokens, List.length_cons, List.length_append] at lengths
  simp only [remaining, Cursor.remaining]
  omega

theorem remaining_lt_prepend (nonempty : ts ≠ []) :
    s.remaining < (s.prepend ts).remaining := by
  have positive := List.length_pos_iff.2 nonempty
  rw [remaining_prepend]
  omega

end State

/-- Every token that may come next, where `us` is put before what follows, is in `P`. -/
def Next (us : List Token) (follow P : Token → Prop) : Prop :=
  match us with
  | [] => ∀ t, follow t → P t
  | u :: _ => P u

theorem Next.current {us : List Token} {follow P : Token → Prop} (next : Next us follow P)
    {s : State} (follows : follow s.cursor.current) : P (s.prepend us).cursor.current := by
  cases us with
  | nil => exact next _ follows
  | cons u us => exact next

theorem Next.weaken {us : List Token} {follow P Q : Token → Prop} (next : Next us follow P)
    (weaker : ∀ t, P t → Q t) : Next us follow Q := by
  cases us with
  | nil => exact fun t follows => weaker t (next t follows)
  | cons u us => exact weaker u next

namespace Parser

/-! Looking at what comes next. -/

theorem bind_current {f : Token → Parser α} {s : State} :
    (current >>= f) s = f s.cursor.current s := rfl

theorem bind_peek {f : Token → Parser α} {n : Nat} {s : State} :
    (peek n >>= f) s = f (s.cursor.peek n) s := rfl

theorem bind_place {f : Location → Parser α} {s : State} :
    (place >>= f) s = f s.cursor.current.location s := rfl

theorem bind_look {f : β → Parser α} {g : Cursor → β} {s : State} :
    (look g >>= f) s = f (g s.cursor) s := rfl

theorem bind_check {f : Bool → Parser α} {q : Token → Bool} {s : State} :
    (check q >>= f) s = f (q s.cursor.current) s := rfl

/-! Whole stretches. -/

def Yields (p : Parser α) (ts : List Token) (a : α) (follow : Token → Prop) : Prop :=
  ∀ s : State, follow s.cursor.current → p (s.prepend ts) = (some a, s)

theorem Yields.weaken {p : Parser α} {ts : List Token} {a : α} {follow follow' : Token → Prop}
    (yields : Yields p ts a follow) (fewer : ∀ t, follow' t → follow t) : Yields p ts a follow' :=
  fun s follows => yields s (fewer _ follows)

/-- Before tokens that may follow, the parser comes to those. -/
theorem Yields.before {p : Parser α} {ts us : List Token} {a : α} {follow follow' : Token → Prop}
    (yields : Yields p ts a follow') (next : Next us follow follow') {s : State}
    (follows : follow s.cursor.current) : p (s.prepend (ts ++ us)) = (some a, s.prepend us) := by
  rw [← State.prepend_prepend]
  exact yields _ (next.current follows)

theorem Yields.attempt {p : Parser α} {ts : List Token} {a : α} {follow : Token → Prop}
    (yields : Yields p ts a follow) : Yields (attempt p) ts (some a) follow := by
  intro s follows
  rw [Parser.attempt, yields s follows]

/-! One token. -/

variable {s : State} {t : Token} {ts : List Token}

theorem advance_prepend (inside : t.kind ≠ .endOfInput) :
    advance (s.prepend (t :: ts)) = (some (), s.prepend ts) := by
  rw [advance, move, State.advance_prepend_cons inside]
  rfl

theorem accept_prepend {q : Token → Bool} (inside : t.kind ≠ .endOfInput) (found : q t = true) :
    accept q (s.prepend (t :: ts)) = (some true, s.prepend ts) := by
  rw [accept_present found, State.advance_prepend_cons inside]
  rfl

theorem acceptKeyword_prepend {k : Keyword} (is : t.kind = .keyword k) :
    acceptKeyword k (s.prepend (t :: ts)) = (some true, s.prepend ts) :=
  accept_prepend (by rw [is]; nofun) (by simp [Token.isKeyword, is])

theorem acceptPunctuation_prepend {p : Punctuation} (is : t.kind = .punctuation p) :
    acceptPunctuation p (s.prepend (t :: ts)) = (some true, s.prepend ts) :=
  accept_prepend (by rw [is]; nofun) (by simp [Token.isPunctuation, is])

theorem requireKeyword_prepend {k : Keyword} (is : t.kind = .keyword k) :
    requireKeyword k (s.prepend (t :: ts)) = (some (), s.prepend ts) := by
  rw [requireKeyword, bind_some (acceptKeyword_prepend is)]
  rfl

theorem closeParen_prepend (is : t.kind = .punctuation .rightParen) :
    closeParen (s.prepend (t :: ts)) = (some (), s.prepend ts) := by
  rw [closeParen, bind_some (acceptPunctuation_prepend is)]
  rfl

theorem identifier_prepend (is : t.kind = .identifier) :
    identifier (s.prepend (t :: ts)) = (some (.ofToken t), s.prepend ts) := by
  rw [identifier_apply, State.current_prepend_cons, if_pos is,
    State.advance_prepend_cons (by rw [is]; nofun)]
  rfl

theorem leaf_yields (e : Expression) (inside : t.kind ≠ .endOfInput) (follow : Token → Prop) :
    Yields (leaf e) [t] e follow := by
  intro s _
  rw [leaf, bind_some (advance_prepend inside)]
  rfl

theorem operator?_prepend {table : TokenKind → Option ω} {op : ω} (inside : t.kind ≠ .endOfInput)
    (known : table t.kind = some op) :
    operator? table (s.prepend (t :: ts)) = (some (some op), s.prepend ts) := by
  rw [operator?, bind_current]
  simp only [State.current_prepend_cons, known]
  rw [bind_some (advance_prepend inside)]
  rfl

theorem operator?_absent {table : TokenKind → Option ω}
    (unknown : table s.cursor.current.kind = none) : operator? table s = (some none, s) := by
  rw [operator?, bind_current]
  simp only [unknown]
  rfl

/-! Items between commas. -/

theorem skipUntil_stop {stop : Token → Bool} (stops : stop s.cursor.current = true)
    (noGroup : s.cursor.current.kind ≠ .punctuation .leftParen) :
    skipUntil stop s = (some (), s) := by
  obtain ⟨⟨t, ahead⟩, reported⟩ := s
  have plain : t.isPunctuation .leftParen = false := by simpa [Token.isPunctuation] using noGroup
  have stays : Cursor.skipFrom stop 0 t ahead = ⟨t, ahead⟩ := by
    cases ahead with
    | nil => rfl
    | cons next ahead =>
        unfold Cursor.skipFrom
        dsimp only at stops
        simp [plain, stops]
  simp [skipUntil, move, Cursor.skipUntil, stays]

theorem kind_of_endsClause (ends : endsClause t = true) : t.kind ≠ .punctuation .leftParen := by
  intro is
  simp [endsClause, is] at ends

theorem kind_of_endsItem (ends : endsItem t = true) : t.kind ≠ .punctuation .leftParen := by
  intro is
  simp [endsItem, endsClause, Token.isPunctuation, is] at ends

/-- What may stand behind the last item of a list. -/
structure ClosesList (ends : Token → Bool) (t : Token) : Prop where
  ends : ends t = true
  noComma : t.kind ≠ .punctuation .comma
  noGroup : t.kind ≠ .punctuation .leftParen

/-- Nothing is left of an item that ends here. -/
theorem finishItem_eq {ends : Token → Bool} (stops : ends s.cursor.current = true)
    (noGroup : s.cursor.current.kind ≠ .punctuation .leftParen) :
    finishItem ends true s = acceptPunctuation .comma s := by
  have quiet : onlyIf (true && !ends s.cursor.current) (reportSurplus .commaOrEndOfList) s =
      (some none, s) := by
    rw [stops]
    rfl
  rw [finishItem, bind_current, bind_some quiet, bind_some (skipUntil_stop stops noGroup)]

variable {item : Parser α} {a : α}

theorem commaList_run {ends : Token → Bool} {s' : State} (run : item s = (some a, s'))
    (closes : ClosesList ends s'.cursor.current) : commaList ends item s = (some [a], s') := by
  have noComma : acceptPunctuation .comma s' = (some false, s') :=
    acceptPunctuation_absent rfl closes.noComma
  have finished : finishItem ends true s' = (some false, s') := by
    rw [finishItem_eq closes.ends closes.noGroup, noComma]
  have tried : attempt item s = (some (some a), s') := by rw [attempt, run]
  apply collect_stop (a := some a)
  rw [bind_some tried]
  exact bind_some finished

variable {ends : Token → Bool} {follow follow' : Token → Prop}

theorem commaList_last (yields : Yields item ts a follow')
    (closes : ∀ t, follow t → follow' t ∧ ClosesList ends t) :
    Yields (commaList ends item) ts [a] follow :=
  fun s follows => commaList_run (yields s (closes _ follows).1) (closes _ follows).2

theorem commaList_item {comma : Token} {us : List Token} {as : List α}
    (isComma : comma.kind = .punctuation .comma) (yields : Yields item ts a follow')
    (before : follow' comma) (parts : ends comma = true)
    (rest : Yields (commaList ends item) us as follow) :
    Yields (commaList ends item) (ts ++ comma :: us) (a :: as) follow := by
  intro s follows
  have noGroup : comma.kind ≠ .punctuation .leftParen := by
    rw [isComma]
    nofun
  have next : Next (comma :: us) follow follow' := before
  have first := yields.attempt.before next follows
  have finished : finishItem ends true (s.prepend (comma :: us)) = (some true, s.prepend us) := by
    rw [finishItem_eq parts noGroup, acceptPunctuation_prepend isComma]
  have shorter : (s.prepend us).remaining < (s.prepend (ts ++ comma :: us)).remaining := by
    rw [State.remaining_prepend, State.remaining_prepend, List.length_append, List.length_cons]
    omega
  refine collect_more (?_ : _ = (some (some a, true), _)) shorter (rest s follows)
  rw [bind_some first]
  exact bind_some finished

/-- The end of a list, not of one of its items only. -/
def EndsList (t : Token) : Prop := endsItem t ∧ t.kind ≠ .punctuation .comma

theorem EndsList.closes (ends : EndsList t) : ClosesList endsItem t :=
  ⟨ends.1, ends.2, kind_of_endsItem ends.1⟩

theorem commaList_one (yields : Yields item ts a (endsItem ·)) :
    Yields (commaList endsItem item) ts [a] EndsList :=
  commaList_last yields fun _ ends => ⟨ends.1, ends.closes⟩

theorem commaList_cons {comma : Token} {us : List Token} {as : List α}
    (isComma : comma.kind = .punctuation .comma) (yields : Yields item ts a (endsItem ·))
    (rest : Yields (commaList endsItem item) us as EndsList) :
    Yields (commaList endsItem item) (ts ++ comma :: us) (a :: as) EndsList := by
  have isEnd : endsItem comma = true := by simp [endsItem, Token.isPunctuation, isComma]
  exact commaList_item isComma yields isEnd isEnd rest

end Parser

end QueryNames.Grammar
