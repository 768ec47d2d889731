import QueryNames.Proofs.OneQuery
import QueryNames.Proofs.Parallel.Enclosed

/-!
A query and the same query in parentheses. Main statement: the parentheses cost the names of the
common tables before the query, and nothing else.
-/

namespace QueryNames

def selectsWildcard (text : String) : Bool := (ParseResult.ofText text).script.selectsWildcard

/-- All that is asked of a text is answered alike for both. -/
def SameAnswers (a b : String) : Prop :=
  tableNames a = tableNames b ∧ fieldNames a = fieldNames b ∧ selectsWildcard a = selectsWildcard b

/-- The text in parentheses. The line feed ends a line comment at the end of it. -/
def parenthesize (text : String) : String := "(" ++ text ++ "\n)"

/-- The tokens of a text in parentheses. -/
theorem TokenStream.tokens_parenthesize {text : String} {query : Query}
    (reads : ReadsAs text query) :
    ∃ opening inside close stop,
      (ofText (parenthesize text)).tokens = opening :: inside ++ [close, stop] ∧
      opening.kind = .punctuation .leftParen ∧ close.kind = .punctuation .rightParen ∧
      stop.kind = .endOfInput ∧
      inside.map (fun t => (t.kind, t.text)) =
        Piece.faces (Piece.chain .start true text.toList) := by
  obtain ⟨front, stop, tokens, ends, -, faces⟩ := tokens_ofText (parenthesize text)
  have chars : (parenthesize text).toList = '(' :: text.toList ++ '\n' :: ')' :: [] := by
    simp [parenthesize]
  obtain ⟨place, enclosed⟩ := @Piece.faces_enclosed .start .start true text.toList [] reads.whole
  rw [chars, enclosed] at faces
  have nothing : Piece.faces (Piece.chain place false []) = [] := by
    rw [Piece.chain]
    rfl
  rw [nothing, List.cons_append] at faces
  obtain ⟨opening, rest, rfl, first, faces⟩ := List.map_eq_cons_iff.1 faces
  obtain ⟨inside, last, rfl, same, faces⟩ := List.map_eq_append_iff.1 faces
  obtain ⟨close, none_, rfl, closing, faces⟩ := List.map_eq_cons_iff.1 faces
  obtain rfl : none_ = [] := by simpa using faces
  refine ⟨opening, inside, close, stop, ?_, congrArg Prod.fst first, congrArg Prod.fst closing,
    ends, same⟩
  rw [tokens]
  simp

/-- In parentheses the query has the same clauses and joined queries, and no common tables. -/
theorem query_of_parenthesized {text : String} {query : Query} (reads : ReadsAs text query)
    (faultless : (ParseResult.ofText (parenthesize text)).errors = []) :
    ∃ inner, (ParseResult.ofText (parenthesize text)).script.queries = [inner] ∧
      inner.commonMarks = [] ∧ inner.ownMarks = query.ownMarks ∧
      inner.joinedMarks = query.joinedMarks := by
  obtain ⟨opening, middle, close, stop, tokens, opens, closes, ends, faces⟩ :=
    TokenStream.tokens_parenthesize reads
  obtain ⟨batch, c, alone, along⟩ := reads.enclosed faces
  have whole (t : Token) (member : t ∈ middle ++ [close]) : t.endsBatch = false := by
    rcases List.mem_append.1 member with member | member
    · exact batch t member
    · obtain rfl := List.mem_singleton.1 member
      simp [Token.endsBatch, Token.isSeparator, Token.isEnd, closes]
  let border := Grammar.Border.ofEnd closes ends
  obtain ⟨d, isD⟩ := Grammar.Cursor.exists_tokens (along border).ne_nil_right
  have behind : middle ++ [close] ++ [stop] = d.tokens := by
    rw [isD]
    simp [border, Grammar.Border.ofEnd]
  have closed : Grammar.Closed d.tokens := by
    rw [← behind]
    exact Grammar.closed_concat _ (by simp [Token.isEnd, ends])
  have stream : TokenStream.ofText (parenthesize text) =
      ⟨opening :: (middle ++ [close]) ++ [stop],
        (TokenStream.ofText (parenthesize text)).errors⟩ := by
    have same : opening :: (middle ++ [close]) ++ [stop] = opening :: middle ++ [close, stop] := by
      simp
    rw [same, ← tokens]
  -- what is read in the parentheses, by every reading without a complaint
  have reading (r : Option Query) (s : Grammar.State)
      (run : (Grammar.level Grammar.nestingLimit).query
        ⟨⟨opening, middle ++ [close] ++ [stop]⟩, []⟩ = (r, s)) (quiet : s.reported = []) :
      ∃ query' : Query, r = some { query' with commonTables := [] } ∧ s = ⟨⟨stop, []⟩, []⟩ ∧
        Grammar.imprint query = Grammar.imprint query' := by
    rw [behind] at run
    obtain ⟨r₁, chain, rfl⟩ :=
      @Grammar.Parser.query_quiet_opening ⟨opening, d.tokens⟩ 39 r s opens run
    obtain ⟨query', rfl, rfl, same⟩ := @Grammar.Parser.queryChain_enclosed border c d 39 query r₁ s
      opening opens (isD ▸ along border) closed alone ends chain quiet
    exact ⟨query', rfl, rfl, same⟩
  rw [ParseResult.ofText, stream] at faultless ⊢
  obtain ⟨inner, s, one, run, quiet⟩ := ParseResult.ofTokens_opening opens whole ends faultless
    fun r s run quiet => by
      obtain ⟨-, -, rfl, -⟩ := reading r s run quiet
      simp [Grammar.Cursor.isAtEnd, Token.isEnd, ends]
  obtain ⟨query', found, -, same⟩ := reading _ s run quiet
  obtain rfl := Option.some.inj found
  have parts : query.commonMarks = query'.commonMarks ∧ query.ownMarks = query'.ownMarks ∧
      query.joinedMarks = query'.joinedMarks := by simpa [Grammar.imprint] using same
  exact ⟨_, one, rfl, parts.2.1.symm, parts.2.2.symm⟩

/-- Parentheses around a query keep its names and stars, but for those of its common tables. So all
that is asked is answered alike exactly if these hold no names, and no star that is missed. -/
theorem names_of_parenthesized {text : String} {query : Query} (reads : ReadsAs text query)
    (faultless : (ParseResult.ofText (parenthesize text)).errors = []) :
    (ParseResult.ofText (parenthesize text)).script.queries.length = 1 ∧
      tableNames text = Mark.tables query.commonMarks ++ tableNames (parenthesize text) ∧
      fieldNames text = Mark.fields query.commonMarks ++ fieldNames (parenthesize text) ∧
      selectsWildcard text =
        (Mark.stars query.commonMarks || selectsWildcard (parenthesize text)) ∧
      (SameAnswers text (parenthesize text) ↔
        Mark.tables query.commonMarks = [] ∧ Mark.fields query.commonMarks = [] ∧
          (Mark.stars query.commonMarks = true → selectsWildcard (parenthesize text) = true)) := by
  obtain ⟨inner, one, noCommon, own, joined⟩ := query_of_parenthesized reads faultless
  have outer : (ParseResult.ofText text).script.marks =
      query.commonMarks ++ (ParseResult.ofText (parenthesize text)).script.marks := by
    simp [Script.marks, reads.queries, one, Query.marks_outline, noCommon, own, joined]
  have tables : tableNames text =
      Mark.tables query.commonMarks ++ tableNames (parenthesize text) := by
    rw [tableNames, tableNames, Script.tableNames_eq_marks, Script.tableNames_eq_marks, outer,
      Mark.tables_append]
  have fields : fieldNames text =
      Mark.fields query.commonMarks ++ fieldNames (parenthesize text) := by
    rw [fieldNames, fieldNames, Script.fieldNames_eq_marks, Script.fieldNames_eq_marks, outer,
      Mark.fields_append]
  have stars : selectsWildcard text =
      (Mark.stars query.commonMarks || selectsWildcard (parenthesize text)) := by
    rw [selectsWildcard, selectsWildcard, Script.selectsWildcard_eq_marks,
      Script.selectsWildcard_eq_marks, outer, Mark.stars_append]
  refine ⟨by rw [one]; rfl, tables, fields, stars, ?_⟩
  rw [SameAnswers, tables, fields, stars]
  refine and_congr ?_ (and_congr ?_ ?_)
  · exact List.append_left_eq_self
  · exact List.append_left_eq_self
  · cases Mark.stars query.commonMarks <;> simp

/-- With a star in the first query of a set operation. -/
theorem names_of_parenthesized_union :
    let text := "SELECT * FROM t UNION SELECT a FROM u -- both"
    (ParseResult.ofText (parenthesize text)).errors = [] ∧ ∃ query, ReadsAs text query ∧
      SameAnswers text (parenthesize text) := by
  intro text
  obtain ⟨⟨one, quiet, batch⟩, common, faultless⟩ :
      ((ParseResult.ofText text).script.queries.length = 1 ∧ (ParseResult.ofText text).errors = [] ∧
        (TokenStream.ofText text).tokens.all (!·.isSeparator) = true) ∧
      (ParseResult.ofText text).script.queries.map (·.commonMarks) = [[]] ∧
      (ParseResult.ofText (parenthesize text)).errors = [] := by decide +kernel
  obtain ⟨query, reads⟩ := ReadsAs.of_length one quiet batch
  have none_ : query.commonMarks = [] := by
    rw [reads.queries] at common
    exact (List.cons.inj common).1
  have same := (names_of_parenthesized reads faultless).2.2.2.2
  refine ⟨faultless, query, reads, same.2 ?_⟩
  rw [none_]
  exact ⟨rfl, rfl, nofun⟩

/-- The names of a common table are lost in parentheses. -/
theorem common_tables_lost_in_parentheses :
    let text := "WITH c AS (SELECT a FROM t) SELECT b FROM c"
    (∃ query, ReadsAs text query) ∧ (ParseResult.ofText (parenthesize text)).errors = [] ∧
      tableNames text = ["t", "c"] ∧ tableNames (parenthesize text) = ["c"] ∧
      ¬SameAnswers text (parenthesize text) := by
  intro text
  obtain ⟨⟨one, quiet, batch⟩, faultless, alone, enclosed⟩ :
      ((ParseResult.ofText text).script.queries.length = 1 ∧ (ParseResult.ofText text).errors = [] ∧
        (TokenStream.ofText text).tokens.all (!·.isSeparator) = true) ∧
      (ParseResult.ofText (parenthesize text)).errors = [] ∧
      tableNames text = ["t", "c"] ∧ tableNames (parenthesize text) = ["c"] := by decide +kernel
  refine ⟨ReadsAs.of_length one quiet batch, faultless, alone, enclosed, fun same => ?_⟩
  have tables := same.1
  rw [alone, enclosed] at tables
  contradiction

end QueryNames
