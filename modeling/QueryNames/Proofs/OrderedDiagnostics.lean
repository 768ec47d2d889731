import QueryNames.Proofs.BatchIsolation
import QueryNames.Proofs.LosslessTokens

/-!
What is wrong with a text, in the order of the text. Main statement: neither two faults nor two
complaints stand at one place, a complaint stands at a token, and a fault goes before the complaint
of the same place.
-/

namespace QueryNames

/-- Faults of a text stand one behind the other. -/
theorem Piece.diagnostics_rise (place : Location) (lineIsBlank : Bool) (cs : List Char) :
    ((chain place lineIsBlank cs).filterMap diagnostic?).Pairwise
      fun d e => d.location.offset < e.location.offset := by
  rw [List.pairwise_filterMap]
  refine (chain_rises place lineIsBlank cs).imp fun rises d is e is' => ?_
  rwa [location_of_diagnostic? is, location_of_diagnostic? is']

theorem Piece.isGrammatical_of_diagnostic? {piece : Piece} {d : Diagnostic}
    (is : piece.diagnostic? = some d) : d.isGrammatical = false := by
  unfold diagnostic? at is
  split at is <;> cases is <;> rfl

namespace ParseResult

open Grammar

variable {tokens : List Token}

/-- Where tokens stand one behind the other, so do the complaints of a batch. -/
theorem ordered_ofBatch (closed : Closed tokens)
    (rising : tokens.Pairwise fun t u => t.location.offset < u.location.offset) :
    (Parser.script ⟨.ofTokens tokens, []⟩).2.Ordered := by
  apply Parser.Stepwise.keeps lasting_ordered
  refine ⟨?_, .nil, nofun, nofun⟩
  rwa [Cursor.tokens_ofTokens_closed closed]

theorem errors_ofBatch (closed : Closed tokens)
    (rising : tokens.Pairwise fun t u => t.location.offset < u.location.offset) :
    (ofBatch ⟨tokens, []⟩).errors =
      (Parser.script ⟨.ofTokens tokens, []⟩).2.reported.reverse := by
  apply Diagnostic.sort_of_rising
  exact List.pairwise_reverse.2 (ordered_ofBatch closed rising).reported

theorem rising_ofBatch (closed : Closed tokens)
    (rising : tokens.Pairwise fun t u => t.location.offset < u.location.offset) :
    (ofBatch ⟨tokens, []⟩).errors.Pairwise (fun d e => d.location.offset < e.location.offset) ∧
      ∀ d ∈ (ofBatch ⟨tokens, []⟩).errors, d.isGrammatical = true := by
  have ordered := ordered_ofBatch closed rising
  rw [errors_ofBatch closed rising]
  exact ⟨List.pairwise_reverse.2 ordered.reported,
    fun d member => ordered.grammatical d (List.mem_reverse.1 member)⟩

/-- The complaints up to the first end of a batch, and those behind it. -/
theorem complaints_whole {front rest : List Token} {t : Token}
    (whole : ∀ u ∈ front, u.endsBatch = false) (ends : t.endsBatch = true) :
    complaints (front ++ t :: rest) =
      (ofBatch ⟨front ++ [Batch.closing t], []⟩).errors ++ complaints rest := by
  have nonempty : front ++ [Batch.closing t] ≠ [] :=
    List.append_ne_nil_of_right_ne_nil front (List.cons_ne_nil _ _)
  have first := flatMap_unlessEmpty (f := (·.errors)) rfl nonempty
  rw [complaints, Batch.ofTokens_whole whole ends, List.flatMap_append, first]
  rfl

theorem complaints_nil : complaints [] = [] := by
  rw [complaints, Batch.ofTokens_nil]
  rfl

/-- Complaints stand one behind the other, those of a batch behind those of the batches before. -/
theorem rising_complaints (closed : Closed tokens)
    (rising : tokens.Pairwise fun t u => t.location.offset < u.location.offset) :
    (complaints tokens).Pairwise (fun d e => d.location.offset < e.location.offset) ∧
      ∀ d ∈ complaints tokens, d.isGrammatical = true := by
  have place (t : Token) : (Batch.closing t).location = t.location := by
    unfold Batch.closing
    split <;> rfl
  induction closed using Batch.closed_induction with
  | last front t whole ends _ =>
      rw [complaints_whole whole ends, complaints_nil, List.append_nil]
      apply rising_ofBatch (closed_concat front (Batch.isEnd_closing t))
      simpa [List.pairwise_append, place] using rising
  | more front t rest whole ends closedRest _ ih =>
      obtain ⟨risingFront, risingRest, apart⟩ := List.pairwise_append.1 rising
      obtain ⟨first, risingRest⟩ := List.pairwise_cons.1 risingRest
      have closedFirst := closed_concat front (Batch.isEnd_closing t)
      have risingFirst : (front ++ [Batch.closing t]).Pairwise
          fun t u => t.location.offset < u.location.offset := by
        refine List.pairwise_append.2 ⟨risingFront, List.pairwise_singleton _ _, ?_⟩
        intro u member v member'
        rw [List.mem_singleton.1 member', place]
        exact apart u member t List.mem_cons_self
      obtain ⟨batch, batchGrammatical⟩ := rising_ofBatch closedFirst risingFirst
      obtain ⟨behind, behindGrammatical⟩ := ih risingRest
      rw [complaints_whole whole ends]
      refine ⟨List.pairwise_append.2 ⟨batch, behind, ?_⟩,
        List.forall_mem_append.2 ⟨batchGrammatical, behindGrammatical⟩⟩
      intro d member e member'
      obtain ⟨u, among, here⟩ := place_of_mem_ofBatch closedFirst member
      obtain ⟨v, later, there⟩ := place_of_mem_complaints closedRest member'
      rw [here, there]
      rcases List.mem_append.1 among with inFront | last
      · exact apart u inFront v (List.mem_cons_of_mem _ later)
      · rw [List.mem_singleton.1 last, place]
        exact first v later

/-- What is wrong with a text comes in the order of the text. No two faults and no two complaints
stand at one place, each complaint stands at a token, and of a fault and a complaint at one place
the fault comes first. -/
theorem ofText_errors_ordered (text : String) :
    let errors := (ofText text).errors
    errors.Pairwise (fun d e => d.location.offset ≤ e.location.offset) ∧
      (errors.filter (!·.isGrammatical)).Pairwise
        (fun d e => d.location.offset < e.location.offset) ∧
      (errors.filter (·.isGrammatical)).Pairwise
        (fun d e => d.location.offset < e.location.offset) ∧
      (∀ d ∈ errors, d.isGrammatical = true →
        ∃ t ∈ (TokenStream.ofText text).tokens, d.location = t.location) ∧
      errors.Pairwise fun d e => d.location.offset = e.location.offset →
        d.isGrammatical = false ∧ e.isGrammatical = true := by
  intro errors
  have layout : Layout .start (TokenStream.ofText text).tokens text.toList :=
    .of_chain .start true text.toList
  have closed : Closed (TokenStream.ofText text).tokens := closed_concat _ rfl
  have lexical : ∀ d ∈ (TokenStream.ofText text).errors, d.isGrammatical = false := by
    intro d member
    obtain ⟨piece, -, is⟩ := List.mem_filterMap.1 member
    exact Piece.isGrammatical_of_diagnostic? is
  obtain ⟨rising, grammatical⟩ := rising_complaints closed (layout.ordered.imp And.left)
  have whole : errors = Diagnostic.sort _ := errors_ofTokens (.ofText text)
  have ordered : errors.Pairwise Diagnostic.Precedes := by
    rw [whole]
    exact Diagnostic.sort_precedes (Piece.diagnostics_rise .start true text.toList) rising lexical
      grammatical
  have apart (grammar : Bool) {ds : List Diagnostic} (sort : ∀ d ∈ ds, d.isGrammatical = grammar)
      (ordered : ds.Pairwise Diagnostic.Precedes) :
      ds.Pairwise fun d e => d.location.offset < e.location.offset := by
    refine ordered.imp_of_mem fun {d e} member member' precedes => ?_
    exact precedes.offset_lt ((sort d member).trans (sort e member').symm)
  refine ⟨ordered.imp Diagnostic.Precedes.offset_le, ?_, ?_, ?_, ?_⟩
  · refine apart false (fun d member => ?_) (ordered.filter _)
    simpa using (List.mem_filter.1 member).2
  · exact apart true (fun d member => (List.mem_filter.1 member).2) (ordered.filter _)
  · intro d member isGrammatical
    refine (place_of_mem_ofTokens closed member).resolve_left fun fault => ?_
    simp [lexical d fault] at isGrammatical
  · refine ordered.imp fun precedes same => ?_
    exact (precedes.resolve_left (Nat.not_lt_of_le (Nat.le_of_eq same.symm))).2

end ParseResult

end QueryNames
