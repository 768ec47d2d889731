import QueryNames.Proofs.OneQuery
import QueryNames.Proofs.OrderedDiagnostics

/-!
Texts of one batch. Main statement: it makes no difference whether the faults of such a text are
known where its reading begins or are put together with the complaints when it has ended.
-/

namespace QueryNames

namespace Grammar

/-- The state as it is where `earlier` had been reported before all else. -/
def State.behind (earlier : List Diagnostic) (s : State) : State :=
  { s with reported := s.reported ++ earlier }

variable {earlier : List Diagnostic}

/-- Only complaints keep a complaint of the same token from being made. -/
theorem report_behind (faults : ∀ d ∈ earlier, d.isGrammatical = false) (complaint : Complaint)
    (s : State) :
    (Parser.report complaint (s.behind earlier)).2 =
      (Parser.report complaint s).2.behind earlier := by
  obtain ⟨c, reported⟩ := s
  have again : ((reported ++ earlier).head?.any fun d =>
        d.isGrammatical && d.location == c.current.location) =
      reported.head?.any fun d => d.isGrammatical && d.location == c.current.location := by
    cases reported with
    | cons d ds => rfl
    | nil =>
        cases earlier with
        | nil => rfl
        | cons d ds => simp [faults d List.mem_cons_self]
  simp only [Parser.report, State.behind, again]
  split <;> rfl

theorem coupling_behind (faults : ∀ d ∈ earlier, d.isGrammatical = false) :
    Coupling fun s t => t = s.behind earlier where
  cursor := by
    rintro s _ rfl
    rfl
  onward := by
    rintro s _ c rfl -
    rfl
  complained := by
    rintro s _ complaint rfl
    exact report_behind faults complaint s

/-- A run finds the same behind faults, and leaves them where they are. -/
theorem Parser.run_behind (p : Parser α) [Stepwise p]
    (faults : ∀ d ∈ earlier, d.isGrammatical = false) (s : State) :
    p (s.behind earlier) = ((p s).1, (p s).2.behind earlier) := by
  obtain ⟨same, behind⟩ := Stepwise.couples (p := p) (coupling_behind faults) (Eq.refl (s.behind _))
  exact Prod.ext same.symm behind

end Grammar

namespace TokenStream

theorem closed_ofText (text : String) : Grammar.Closed (ofText text).tokens :=
  Grammar.closed_concat _ rfl

theorem rising_ofText (text : String) :
    (ofText text).tokens.Pairwise fun t u => t.location.offset < u.location.offset := by
  have layout : Layout .start (ofText text).tokens text.toList :=
    .of_chain .start true text.toList
  exact layout.ordered.imp And.left

theorem lexical_ofText (text : String) : ∀ d ∈ (ofText text).errors, d.isGrammatical = false := by
  intro d member
  obtain ⟨piece, -, is⟩ := List.mem_filterMap.1 member
  exact Piece.isGrammatical_of_diagnostic? is

/-- The tokens of a text without separators, up to the end of input. -/
theorem oneBatch_ofText {text : String}
    (oneBatch : ∀ t ∈ (ofText text).tokens, t.isSeparator = false) :
    ∃ front stop, (ofText text).tokens = front ++ [stop] ∧ stop.isEnd = true ∧
      ∀ t ∈ front, t.endsBatch = false := by
  obtain ⟨front, stop, tokens, ends, goesOn, -⟩ := tokens_ofText text
  refine ⟨front, stop, tokens, by simp [Token.isEnd, ends], fun t member => ?_⟩
  have apart := oneBatch t (tokens ▸ List.mem_append_left _ member)
  simp [Token.endsBatch, apart, Token.isEnd, goesOn t member]

end TokenStream

namespace ParseResult

open Grammar

/-- Faults that are known from the start come before the complaints. -/
theorem ofBatch_faults {stream : TokenStream}
    (faults : ∀ d ∈ stream.errors, d.isGrammatical = false) :
    ofBatch stream = ⟨(ofBatch ⟨stream.tokens, []⟩).script,
      Diagnostic.sort (stream.errors ++
        (Parser.script ⟨.ofTokens stream.tokens, []⟩).2.reported.reverse)⟩ := by
  have earlier : ∀ d ∈ stream.errors.reverse, d.isGrammatical = false := by
    simpa using faults
  have run := Parser.run_behind Parser.script earlier ⟨.ofTokens stream.tokens, []⟩
  have start : State.behind stream.errors.reverse ⟨.ofTokens stream.tokens, []⟩ =
      ⟨.ofTokens stream.tokens, stream.errors.reverse⟩ := rfl
  rw [start] at run
  simp [ofBatch, run, State.behind]

/-- A text without separators is read the same as one batch and batch by batch, also where it holds
nothing but an end of input. -/
theorem ofBatch_ofText (text : String)
    (oneBatch : ∀ t ∈ (TokenStream.ofText text).tokens, t.isSeparator = false) :
    ofBatch (.ofText text) = ofText text := by
  obtain ⟨front, stop, tokens, ends, whole⟩ := TokenStream.oneBatch_ofText oneBatch
  have complaints := errors_ofBatch (TokenStream.closed_ofText text)
    (TokenStream.rising_ofText text)
  have batch := ofTokens_batch whole ends (TokenStream.ofText text).errors
  rw [← tokens] at batch
  rw [ofBatch_faults (TokenStream.lexical_ofText text), ← complaints]
  exact batch.symm

/-- The fault and the complaint stand at one token. -/
theorem ofBatch_ofText_fault :
    let text := "'a\nSELECT ("
    let stream := TokenStream.ofText text
    (∀ t ∈ stream.tokens, t.isSeparator = false) ∧
      stream.errors.map (·.location.offset) = [0] ∧
      (Parser.script ⟨.ofTokens stream.tokens, []⟩).2.reported.map (·.location.offset) = [0] ∧
      ofBatch stream = ofText text := by
  intro text stream
  have oneBatch : ∀ t ∈ stream.tokens, t.isSeparator = false := by
    decide +kernel
  have atOnce : stream.errors.map (·.location.offset) = [0] ∧
      (Parser.script ⟨.ofTokens stream.tokens, []⟩).2.reported.map (·.location.offset) = [0] := by
    decide +kernel
  exact ⟨oneBatch, atOnce.1, atOnce.2, ofBatch_ofText text oneBatch⟩

end ParseResult

end QueryNames
