import QueryNames.Extraction
import QueryNames.Proofs.Parallel.Enclosed
import QueryNames.Proofs.Text.Kind
import QueryNames.Proofs.Text.Known

/-!
Texts that hold one query and nothing wrong. Main statement: the tokens of such a text are that
query, read without a complaint, with semicolons around it.
-/

namespace QueryNames

/-- The text is one batch, with one query in it and nothing wrong. -/
structure ReadsAs (text : String) (query : Query) : Prop where
  queries : (ParseResult.ofText text).script.queries = [query]
  faultless : (ParseResult.ofText text).errors = []
  oneBatch : ∀ t ∈ (TokenStream.ofText text).tokens, t.isSeparator = false

theorem ReadsAs.of_length {text : String}
    (one : (ParseResult.ofText text).script.queries.length = 1)
    (faultless : (ParseResult.ofText text).errors = [])
    (oneBatch : (TokenStream.ofText text).tokens.all (!·.isSeparator) = true) :
    ∃ query, ReadsAs text query := by
  obtain ⟨query, queries⟩ := List.length_eq_one_iff.1 one
  exact ⟨query, queries, faultless, by simpa using oneBatch⟩

/-- Whether the text is one query. -/
def isOneQuery (text : String) : Bool :=
  (ParseResult.ofText text).script.queries.length == 1 &&
    (ParseResult.ofText text).errors.isEmpty &&
    (TokenStream.ofText text).tokens.all (!·.isSeparator)

theorem isOneQuery_iff {text : String} :
    isOneQuery text = true ↔ ∃ query, ReadsAs text query := by
  simp only [isOneQuery, Bool.and_eq_true, beq_iff_eq, List.isEmpty_iff]
  constructor
  · rintro ⟨⟨one, faultless⟩, oneBatch⟩
    exact ReadsAs.of_length one faultless oneBatch
  · rintro ⟨query, queries, faultless, oneBatch⟩
    exact ⟨⟨by rw [queries, List.length_singleton], faultless⟩, by simpa using oneBatch⟩

namespace Grammar

variable {border : Border}

theorem along_of_faces {ts us : List Token} {stop : Token}
    (faces : us.map (fun t => (t.kind, t.text)) = ts.map (fun t => (t.kind, t.text)))
    (inside : ∀ t ∈ ts, t.kind ≠ .endOfInput) (ends : stop.kind = .endOfInput) :
    Along border (ts ++ [stop]) (us ++ border.close :: border.first :: border.behind) := by
  induction ts generalizing us with
  | nil =>
      obtain rfl : us = [] := by simpa using faces
      exact .last ends
  | cons t ts ih =>
      cases us with
      | nil => cases faces
      | cons u us =>
          obtain ⟨here, behind⟩ := List.cons.inj faces
          obtain ⟨kind, text⟩ := Prod.mk.inj here
          refine .next kind.symm text.symm (inside t List.mem_cons_self) ?_
          exact ih behind fun t member => inside t (List.mem_cons_of_mem _ member)

end Grammar

namespace ParseResult

variable {front : List Token} {stop : Token} {errors : List Diagnostic}

/-- One batch without an error is read as a script without a complaint. -/
theorem ofTokens_quiet (whole : ∀ t ∈ front, t.endsBatch = false) (ends : stop.kind = .endOfInput)
    (quiet : (ofTokens ⟨front ++ [stop], errors⟩).errors = []) :
    errors = [] ∧ ∃ c s, c.tokens = front ++ [stop] ∧ s.reported = [] ∧
      Grammar.Parser.script ⟨c, []⟩ =
        (some (ofTokens ⟨front ++ [stop], errors⟩).script.queries, s) := by
  have isEnd : stop.isEnd = true := by simp [Token.isEnd, ends]
  obtain ⟨c, same⟩ := Grammar.Cursor.exists_tokens
    (List.append_ne_nil_of_right_ne_nil front (List.cons_ne_nil stop []))
  have closed : Grammar.Closed c.tokens := same ▸ Grammar.closed_concat front isEnd
  obtain ⟨queries, s, run⟩ := Grammar.Parser.Total.result (p := Grammar.Parser.script) ⟨c, []⟩
  rw [ofTokens_batch whole isEnd, ← same, ofBatch_script closed run] at quiet ⊢
  obtain ⟨noErrors, noComplaints⟩ :=
    List.append_eq_nil_iff.1 (Diagnostic.eq_nil_of_sort quiet)
  have quiet' := List.reverse_eq_nil_iff.1 (Diagnostic.eq_nil_of_sort noComplaints)
  exact ⟨noErrors, c, s, rfl, quiet', run⟩

theorem ofTokens_stop (ends : stop.kind = .endOfInput) :
    (ofTokens ⟨[stop], errors⟩).script.queries = [] := by
  have isEnd : stop.isEnd = true := Token.isEnd_iff.2 ends
  have batch := @ofTokens_batch [] stop (List.forall_mem_nil _) isEnd errors
  rw [List.nil_append] at batch
  rw [batch, ofBatch_isEmpty (List.cons_ne_nil _ _) (by simp [Batch.isEmpty, isEnd])]

/-- One batch between an opening parenthesis and an end of input, read without a complaint, is one
query, if a query without complaints goes on to the end. -/
theorem ofTokens_opening {opening : Token}
    (opens : opening.kind = .punctuation .leftParen)
    (whole : ∀ t ∈ front, t.endsBatch = false) (ends : stop.kind = .endOfInput)
    (quiet : (ofTokens ⟨opening :: front ++ [stop], errors⟩).errors = [])
    (goesOn : ∀ r s, (Grammar.level Grammar.nestingLimit).query ⟨⟨opening, front ++ [stop]⟩, []⟩ =
      (r, s) → s.reported = [] → s.cursor.isAtEnd = true) :
    ∃ query s, (ofTokens ⟨opening :: front ++ [stop], errors⟩).script.queries = [query] ∧
      (Grammar.level Grammar.nestingLimit).query ⟨⟨opening, front ++ [stop]⟩, []⟩ =
        (some query, s) ∧ s.reported = [] := by
  have inside (t : Token) (member : t ∈ opening :: front) : t.endsBatch = false := by
    rcases List.mem_cons.1 member with rfl | member
    · simp [Token.endsBatch, Token.isSeparator, Token.isEnd, opens]
    · exact whole t member
  obtain ⟨-, c, s, same, still, run⟩ :=
    ofTokens_quiet inside ends quiet
  obtain rfl : c = ⟨opening, front ++ [stop]⟩ := by
    obtain ⟨t, ts⟩ := c
    cases same
    rfl
  obtain ⟨query, s₁, reads, quiet₁, one⟩ :=
    Grammar.Parser.script_opening opens run still goesOn
  exact ⟨query, s₁, one, reads, quiet₁⟩

end ParseResult

/-- The tokens of a text: those of its pieces, and an end of input behind them. -/
theorem TokenStream.tokens_ofText (text : String) :
    ∃ front stop, (ofText text).tokens = front ++ [stop] ∧ stop.kind = .endOfInput ∧
      (∀ t ∈ front, t.kind ≠ .endOfInput) ∧
      front.map (fun t => (t.kind, t.text)) =
        Piece.faces (Piece.chain .start true text.toList) := by
  refine ⟨_, _, rfl, rfl, ?_, ?_⟩
  · intro t member
    obtain ⟨piece, among, is⟩ := List.mem_filterMap.1 member
    have kind := Piece.kind_of_mem_chain among
    obtain ⟨pieceKind, pieceText, place⟩ := piece
    cases pieceKind with
    | token k =>
        cases is
        exact fun ends => kind (congrArg Piece.Kind.token ends)
    | fault fault =>
        cases is
        nofun
    | _ => cases is
  · rw [Piece.faces, List.map_filterMap]
    rfl

/-- Tokens with the kinds of those of one batch end none either. -/
theorem endsBatch_of_faces {front middle : List Token}
    (faces : middle.map (fun t => (t.kind, t.text)) = front.map (fun t => (t.kind, t.text)))
    (whole : ∀ t ∈ front, t.endsBatch = false) : ∀ t ∈ middle, t.endsBatch = false := by
  intro t member
  have face : (t.kind, t.text) ∈ front.map (fun t => (t.kind, t.text)) := by
    rw [← faces]
    exact List.mem_map_of_mem member
  obtain ⟨u, among, same⟩ := List.mem_map.1 face
  have kind : u.kind = t.kind := congrArg Prod.fst same
  have apart := whole u among
  simpa [Token.endsBatch, Token.isSeparator, Token.isEnd, kind] using apart

namespace ReadsAs

variable {text : String} {query : Query}

theorem whole (reads : ReadsAs text query) :
    ∀ piece ∈ Piece.chain .start true text.toList, piece.kind.isWhole = true := by
  intro piece member
  have all := Diagnostic.eq_nil_of_sort reads.faultless
  have noFault : (TokenStream.ofText text).errors = [] := (List.append_eq_nil_iff.1 all).1
  have sound : piece.diagnostic? = none := List.filterMap_eq_nil_iff.1 noFault piece member
  obtain ⟨kind, pieceText, place⟩ := piece
  cases kind with
  | unclosedComment => cases sound
  | fault fault => cases sound
  | token k =>
      by_cases separates : k = .batchSeparator
      · subst separates
        have apart := reads.oneBatch ⟨.batchSeparator, String.ofList pieceText, place⟩
          (List.mem_append_left _ (List.mem_filterMap.2 ⟨_, member, rfl⟩))
        cases apart
      · simp only [Piece.Kind.isWhole]
        split <;> simp_all
  | _ => rfl

/-- The tokens of the text are the query. -/
theorem alone (reads : ReadsAs text query) :
    ∃ front stop, (TokenStream.ofText text).tokens = front ++ [stop] ∧ stop.kind = .endOfInput ∧
      (∀ t ∈ front, t.kind ≠ .endOfInput) ∧
      front.map (fun t => (t.kind, t.text)) = Piece.faces (Piece.chain .start true text.toList) ∧
      Grammar.Parser.Alone (front ++ [stop]) query := by
  obtain ⟨front, stop, tokens, ends, inside, faces⟩ := TokenStream.tokens_ofText text
  obtain ⟨queries, faultless, oneBatch⟩ := reads
  have stream : TokenStream.ofText text = ⟨front ++ [stop], (TokenStream.ofText text).errors⟩ := by
    rw [← tokens]
  rw [ParseResult.ofText, stream] at queries faultless
  have nonempty : front ≠ [] := by
    rintro rfl
    rw [List.nil_append, ParseResult.ofTokens_stop ends] at queries
    cases queries
  have whole (t : Token) (member : t ∈ front) : t.endsBatch = false := by
    have apart := oneBatch t (by rw [tokens]; exact List.mem_append_left _ member)
    simp [Token.endsBatch, apart, Token.isEnd, inside t member]
  obtain ⟨-, c, s, same, quiet, run⟩ := ParseResult.ofTokens_quiet whole ends faultless
  rw [queries] at run
  refine ⟨front, stop, tokens, ends, inside, faces, ?_⟩
  rw [← same]
  exact Grammar.Parser.script_alone (by rw [same]; exact .concat inside ends) run quiet

/-- In a longer text, tokens of the kinds and texts of these go along with the query read alone. -/
theorem enclosed (reads : ReadsAs text query) {middle : List Token}
    (faces : middle.map (fun t => (t.kind, t.text)) =
      Piece.faces (Piece.chain .start true text.toList)) :
    (∀ t ∈ middle, t.endsBatch = false) ∧ ∃ c : Grammar.Cursor,
      Grammar.Parser.Alone c.tokens query ∧ ∀ border : Grammar.Border,
        Grammar.Along border c.tokens
          (middle ++ border.close :: border.first :: border.behind) := by
  obtain ⟨front, stop, tokens, ends, inside, faces', alone⟩ := reads.alone
  have same := faces.trans faces'.symm
  have batch (t : Token) (member : t ∈ front) : t.endsBatch = false := by
    have apart := reads.oneBatch t (by rw [tokens]; exact List.mem_append_left _ member)
    simp [Token.endsBatch, apart, Token.isEnd, inside t member]
  obtain ⟨c, isC⟩ := Grammar.Cursor.exists_tokens
    (List.append_ne_nil_of_right_ne_nil front (List.cons_ne_nil stop []))
  rw [← isC] at alone
  refine ⟨endsBatch_of_faces same batch, c, alone, fun border => ?_⟩
  rw [isC]
  exact Grammar.along_of_faces same inside ends

end ReadsAs

end QueryNames
