import QueryNames.Proofs.Stepwise.Query

/-!
What lasts while a parser runs. Main statements: whatever the grammar finds wrong stands at one of
the tokens, and where those stand one behind the other, each complaint stands behind those made
before.
-/

namespace QueryNames.Grammar

/-- No token comes to stand ahead that did not before. -/
theorem lasting_ahead (P : Token → Prop) : Lasting fun s => ∀ t ∈ s.cursor.tokens, P t where
  onward holds suffix t member := holds t (suffix.subset member)
  complained {s} complaint holds := by
    unfold Parser.report
    dsimp only
    split <;> exact holds

/-- All that is still ahead and all that is reported stands at places in `P`. -/
structure State.Within (P : Location → Prop) (s : State) : Prop where
  ahead : ∀ t ∈ s.cursor.tokens, P t.location
  reported : ∀ d ∈ s.reported, P d.location

theorem lasting_within (P : Location → Prop) : Lasting (State.Within P) where
  onward within onward := ⟨fun t member => within.ahead t (onward.subset member), within.reported⟩
  complained {s} complaint within := by
    unfold Parser.report
    dsimp only
    split
    · exact within
    · refine ⟨within.ahead, List.forall_mem_cons.2 ⟨?_, within.reported⟩⟩
      exact within.ahead s.cursor.current List.mem_cons_self

theorem State.within_ofTokens {tokens : List Token} (closed : Closed tokens) :
    (State.mk (.ofTokens tokens) []).Within fun place => ∃ t ∈ tokens, place = t.location := by
  refine ⟨fun t member => ?_, nofun⟩
  rw [Cursor.tokens_ofTokens_closed closed] at member
  exact ⟨t, member, rfl⟩

/-- The tokens ahead stand one behind the other, behind all complaints, the last of which may be one
of the current token. -/
structure State.Ordered (s : State) : Prop where
  ahead : s.cursor.tokens.Pairwise fun t u => t.location.offset < u.location.offset
  reported : s.reported.Pairwise fun d e => e.location.offset < d.location.offset
  grammatical : ∀ d ∈ s.reported, d.isGrammatical = true
  behind : ∀ d ∈ s.reported, ∀ t ∈ s.cursor.tokens,
    d.location = t.location ∨ d.location.offset < t.location.offset

namespace State.Ordered

variable {s : State}

/-- Unless the last complaint is one of the current token, all stand before it. -/
theorem before_current (ordered : s.Ordered)
    (first : (s.reported.head?.any fun d =>
      d.isGrammatical && d.location == s.cursor.current.location) = false) :
    ∀ d ∈ s.reported, d.location.offset < s.cursor.current.location.offset := by
  cases found : s.reported with
  | nil => nofun
  | cons last earlier =>
      have member : last ∈ s.reported := by simp [found]
      have other : last.location ≠ s.cursor.current.location := by
        simpa [found, ordered.grammatical last member] using first
      have lastBefore := (ordered.behind last member _ List.mem_cons_self).resolve_left other
      have falling := ordered.reported
      rw [found] at falling
      refine List.forall_mem_cons.2 ⟨lastBefore, fun d among => ?_⟩
      exact Nat.lt_trans ((List.pairwise_cons.1 falling).1 d among) lastBefore

theorem complain (ordered : s.Ordered) (complaint : Complaint) :
    (Parser.report complaint s).2.Ordered := by
  unfold Parser.report
  dsimp only
  split
  · exact ordered
  · rename_i first
    have before := ordered.before_current (by simpa using first)
    have rising := (List.pairwise_cons.1 ordered.ahead).1
    refine ⟨ordered.ahead, List.pairwise_cons.2 ⟨before, ordered.reported⟩,
      List.forall_mem_cons.2 ⟨rfl, ordered.grammatical⟩,
      List.forall_mem_cons.2 ⟨fun t member => ?_, ordered.behind⟩⟩
    rcases List.mem_cons.1 member with rfl | later
    · exact .inl rfl
    · exact .inr (rising t later)

end State.Ordered

theorem lasting_ordered : Lasting State.Ordered where
  onward ordered onward :=
    ⟨ordered.ahead.sublist onward.sublist, ordered.reported, ordered.grammatical,
      fun d member t among => ordered.behind d member t (onward.subset among)⟩
  complained complaint ordered := ordered.complain complaint

end QueryNames.Grammar
