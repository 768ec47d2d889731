import QueryNames.Batch
import QueryNames.Proofs.Grammar.Cursor

/-!
Names behind `AS` and `INTO`: labels, types and new tables, none of which is a mention. Main
statement: a scan of the tokens before it tells of each token whether it is a part of such a name.
-/

namespace QueryNames

/-- `AS` and `INTO` announce a name. -/
@[reducible] def Keyword.announces : Keyword → Bool
  | .as | .into => true
  | _ => false

def Token.announces (t : Token) : Bool :=
  match t.kind with
  | .keyword k => k.announces
  | _ => false

theorem Token.announces_eq_true {t : Token} :
    t.announces = true ↔ t.kind = .keyword .as ∨ t.kind = .keyword .into := by
  cases kind : t.kind with
  | keyword k => cases k <;> simp [announces, kind]
  | _ => simp [announces, kind]

/-- The token is a part of the name that the list begins with. There may be more than one period
between two parts. -/
inductive PartOfHead : List Token → Token → Prop
  | first {t : Token} {tokens : List Token} (kind : t.kind = .identifier) :
      PartOfHead (t :: tokens) t
  | later {first t : Token} {periods tokens : List Token} (kind : first.kind = .identifier)
      (nonempty : periods ≠ []) (only : ∀ p ∈ periods, p.isPunctuation .period = true)
      (rest : PartOfHead tokens t) : PartOfHead (first :: (periods ++ tokens)) t

/-- The token is a part of a name right behind an `AS` or an `INTO`. -/
def Announced (tokens : List Token) (t : Token) : Prop :=
  ∃ front word behind, tokens = front ++ word :: behind ∧ word.announces = true ∧
    PartOfHead behind t

/-- What a scan has come behind: a word that announces, a part of an announced name, periods in
such a name, or nothing of the sort. -/
inductive Wake where
  | clear
  | word
  | part
  | periods
  deriving DecidableEq

namespace Wake

/-- The token goes on with what was announced. -/
def takes : Wake → Token → Bool
  | .clear, _ => false
  | .word, t => t.kind == .identifier
  | .part, t => t.isPunctuation .period
  | .periods, t => t.kind == .identifier || t.isPunctuation .period

def after (wake : Wake) (t : Token) : Wake :=
  if wake.takes t then
    if t.kind = .identifier then .part else .periods
  else if t.announces then .word
  else .clear

def of (front : List Token) : Wake := front.foldl after .clear

@[simp] theorem of_concat (front : List Token) (t : Token) :
    of (front ++ [t]) = (of front).after t := by
  simp [of]

variable {wake : Wake} {t : Token}

theorem after_announces (word : t.announces = true) : wake.after t = .word := by
  have kind := Token.announces_eq_true.1 word
  have refused : wake.takes t = false := by
    rcases kind with kind | kind <;> cases wake <;> simp [takes, Token.isPunctuation, kind]
  simp [after, refused, word]

/-- Nothing but names and periods goes on with an announced name. -/
theorem takes_eq_false (noName : t.kind ≠ .identifier) (noPeriod : t.kind ≠ .punctuation .period) :
    wake.takes t = false := by
  cases wake <;> simp [takes, Token.isPunctuation, noName, noPeriod]

theorem after_silent (untaken : wake.takes t = false) (silent : t.announces = false) :
    wake.after t = .clear := by
  simp [after, untaken, silent]

theorem after_endsBatch (ends : t.endsBatch = true) : wake.after t = .clear := by
  have kind : t.kind = .batchSeparator ∨ t.kind = .endOfInput := by
    simpa [Token.endsBatch, Token.isSeparator, Token.isEnd] using ends
  apply after_silent
  · apply takes_eq_false <;> rcases kind with kind | kind <;> simp [kind]
  · rcases kind with kind | kind <;> simp [Token.announces, kind]

/-- Behind an end of a batch the scan begins anew. -/
theorem of_batch {ends : Token} (endsBatch : ends.endsBatch = true) (before front : List Token) :
    of (before ++ ends :: front) = of front := by
  simp [of, after_endsBatch endsBatch]

theorem foldl_periods {periods : List Token}
    (only : ∀ p ∈ periods, p.isPunctuation .period = true) :
    periods.foldl after .periods = .periods := by
  induction periods with
  | nil => rfl
  | cons p periods ih =>
      obtain ⟨period, rest⟩ := List.forall_mem_cons.1 only
      have kind : p.kind = .punctuation .period := Token.isPunctuation_iff.1 period
      have here : Wake.periods.after p = .periods := by simp [after, takes, period, kind]
      rw [List.foldl_cons, here, ih rest]

/-- A scan that is ready for a name takes all its parts. -/
theorem takes_of_partOfHead {tokens : List Token} (head : PartOfHead tokens t)
    (ready : wake = .word ∨ wake = .periods) :
    t.kind = .identifier ∧ ∃ front behind, tokens = front ++ t :: behind ∧
      (front.foldl after wake).takes t = true := by
  have takesName {t : Token} {wake : Wake} (kind : t.kind = .identifier)
      (ready : wake = .word ∨ wake = .periods) : wake.takes t = true := by
    rcases ready with rfl | rfl <;> simp [takes, kind]
  induction head generalizing wake with
  | first kind => exact ⟨kind, [], _, rfl, takesName kind ready⟩
  | @later first t periods tokens kind nonempty only rest ih =>
      obtain ⟨isName, front, behind, rfl, taken⟩ := ih (.inr rfl)
      refine ⟨isName, first :: (periods ++ front), behind, by simp, ?_⟩
      have begun : wake.after first = .part := by simp [after, takesName kind ready, kind]
      obtain ⟨p, others, rfl⟩ := List.exists_cons_of_ne_nil nonempty
      obtain ⟨period, others⟩ := List.forall_mem_cons.1 only
      have isPeriod : p.kind = .punctuation .period := Token.isPunctuation_iff.1 period
      have joined : Wake.part.after p = .periods := by simp [after, takes, period, isPeriod]
      rwa [List.foldl_cons, begun, List.foldl_append, List.foldl_cons, joined,
        foldl_periods others]

end Wake

/-- The scan takes every part of an announced name. -/
theorem Announced.taken {tokens : List Token} {t : Token} (announced : Announced tokens t) :
    t.kind = .identifier ∧ ∃ front behind, tokens = front ++ t :: behind ∧
      (Wake.of front).takes t = true := by
  obtain ⟨before, word, rest, rfl, announces, head⟩ := announced
  obtain ⟨kind, front, behind, rfl, taken⟩ := Wake.takes_of_partOfHead head (.inl rfl)
  refine ⟨kind, before ++ word :: front, behind, by simp, ?_⟩
  rwa [Wake.of, List.foldl_append, List.foldl_cons, Wake.after_announces announces]

end QueryNames
