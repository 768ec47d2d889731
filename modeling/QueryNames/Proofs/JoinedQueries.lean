import QueryNames.Proofs.OneQuery
import QueryNames.Proofs.Parallel.SetOperation
import QueryNames.Proofs.Parenthesized
import QueryNames.Proofs.Text.Known

/-!
Two queries in parentheses that a set operator joins. Main statement: of the first query only the
names of its own clauses remain; those of the common tables before it and of the queries that are
joined to it inside of its parentheses are lost.
-/

namespace QueryNames

/-- The operator between blanks. -/
def SetOperator.text : SetOperator → String
  | .union => " UNION "
  | .unionAll => " UNION ALL "
  | .except => " EXCEPT "
  | .intersect => " INTERSECT "

/-- The set operation of two texts, both in parentheses. -/
def joinTexts (operator : SetOperator) (left right : String) : String :=
  parenthesize left ++ operator.text ++ parenthesize right

/-- The names in a set operation are those of its first operand and then those of its second. -/
def KeepsOperands (operator : SetOperator) (left right : String) : Prop :=
  tableNames (joinTexts operator left right) = tableNames left ++ tableNames right ∧
    fieldNames (joinTexts operator left right) = fieldNames left ++ fieldNames right

namespace Piece

/-- A keyword between blanks. -/
theorem lexes_spaced {text : List Char} {k : Keyword}
    (lexes : Lexes text EndsWord fun ts => ∃ t, ts = [t] ∧ t.kind = .keyword k)
    (ink : ∀ rest, BeginsInk (text ++ rest)) :
    Lexes ([' '] ++ text) EndsWord fun ts => ts.map (·.kind) = [.keyword k] := by
  apply (lexes_blank.append lexes fun rest _ => ink rest).imp
  rintro _ ⟨_, _, rfl, rfl, t, rfl, kind⟩
  simp [kind]

theorem lexes_operator (operator : SetOperator) :
    Lexes operator.text.toList BeginsInk fun ts =>
      ts.map (·.kind) = operator.keywords.map .keyword := by
  have union := lexes_spaced (@lexes_keyword .union 'U' ['N', 'I', 'O', 'N'] (fun _ _ => rfl)
    (by decide +kernel) (by decide +kernel) rfl) fun _ => ⟨_, _, rfl, rfl⟩
  have all := lexes_spaced (@lexes_keyword .all 'A' ['L', 'L'] (fun _ _ => rfl)
    (by decide +kernel) (by decide +kernel) rfl) fun _ => ⟨_, _, rfl, rfl⟩
  have except := lexes_spaced (@lexes_keyword .except 'E' ['X', 'C', 'E', 'P', 'T']
    (fun _ _ => rfl) (by decide +kernel) (by decide +kernel) rfl) fun _ => ⟨_, _, rfl, rfl⟩
  have intersect := lexes_spaced (@lexes_keyword .intersect 'I'
    ['N', 'T', 'E', 'R', 'S', 'E', 'C', 'T'] (fun _ _ => rfl) (by decide +kernel)
    (by decide +kernel) rfl) fun _ => ⟨_, _, rfl, rfl⟩
  have blank {text : List Char} {ks : List TokenKind}
      (lexes : Lexes text EndsWord fun ts => ts.map (·.kind) = ks) :
      Lexes (text ++ [' ']) BeginsInk fun ts => ts.map (·.kind) = ks := by
    apply (lexes.append lexes_blank fun rest _ => endsWord_blank rest).imp
    rintro _ ⟨_, _, rfl, kinds, rfl⟩
    simpa using kinds
  cases operator with
  | union => exact blank union
  | unionAll =>
      have both := union.append all fun rest _ => endsWord_blank _
      have kinds := @Lexes.imp _ _ _
        (fun ts => ts.map (·.kind) = SetOperator.unionAll.keywords.map .keyword) both (by
          rintro _ ⟨_, _, rfl, kinds, kinds'⟩
          rw [List.map_append, kinds, kinds']
          rfl)
      exact blank kinds
  | except => exact blank except
  | intersect => exact blank intersect

theorem faces_eq_map (pieces : List Piece) :
    faces pieces = (pieces.filterMap token?).map fun t => (t.kind, t.text) := by
  rw [List.map_filterMap]
  rfl

/-- The tokens of a set operation are those of both texts between their parentheses. -/
theorem faces_joinTexts {left right : String} (operator : SetOperator)
    (whole : ∀ piece ∈ chain .start true left.toList, piece.kind.isWhole = true)
    (whole' : ∀ piece ∈ chain .start true right.toList, piece.kind.isWhole = true) :
    ∃ spelled : List Token, spelled.map (·.kind) = operator.keywords.map .keyword ∧
      faces (chain .start true (joinTexts operator left right).toList) =
        (.punctuation .leftParen, "(") :: faces (chain .start true left.toList) ++
          (.punctuation .rightParen, ")") :: (spelled.map fun t => (t.kind, t.text)) ++
          (.punctuation .leftParen, "(") :: faces (chain .start true right.toList) ++
          [(.punctuation .rightParen, ")")] := by
  have chars : (joinTexts operator left right).toList =
      '(' :: left.toList ++ '\n' :: ')' :: (operator.text.toList ++
        ('(' :: right.toList ++ '\n' :: ')' :: [])) := by
    simp [joinTexts, parenthesize]
  obtain ⟨place, enclosed⟩ := @faces_enclosed .start .start true left.toList
    (operator.text.toList ++ ('(' :: right.toList ++ '\n' :: ')' :: [])) whole
  obtain ⟨pieces, lineIsBlank, split, -, kinds⟩ := lexes_operator operator place false
    ('(' :: right.toList ++ '\n' :: ')' :: []) ⟨_, _, rfl, rfl⟩
  obtain ⟨place', enclosed'⟩ := @faces_enclosed .start (place.after operator.text.toList)
    lineIsBlank right.toList [] whole'
  refine ⟨pieces.filterMap token?, kinds, ?_⟩
  have nothing : faces (chain place' false []) = [] := by
    rw [chain]
    rfl
  have behind : faces (pieces ++ chain (place.after operator.text.toList) lineIsBlank
      ('(' :: right.toList ++ '\n' :: ')' :: [])) = faces pieces ++ faces (chain
        (place.after operator.text.toList) lineIsBlank
          ('(' :: right.toList ++ '\n' :: ')' :: [])) := List.filterMap_append
  rw [chars, enclosed, split, behind, enclosed', nothing, faces_eq_map pieces]
  simp

end Piece

open Grammar

variable {left right : String} {query query' : Query}

theorem TokenStream.tokens_joinTexts (operator : SetOperator) (reads : ReadsAs left query)
    (reads' : ReadsAs right query') :
    ∃ (opening close opening' close' stop : Token) (inside spelled inside' : List Token),
      (ofText (joinTexts operator left right)).tokens =
        opening :: (inside ++ close :: spelled ++ opening' :: inside' ++ [close']) ++ [stop] ∧
      opening.kind = .punctuation .leftParen ∧ close.kind = .punctuation .rightParen ∧
      spelled.map (·.kind) = operator.keywords.map .keyword ∧
      opening'.kind = .punctuation .leftParen ∧ close'.kind = .punctuation .rightParen ∧
      stop.kind = .endOfInput ∧
      inside.map (fun t => (t.kind, t.text)) = Piece.faces (Piece.chain .start true left.toList) ∧
      inside'.map (fun t => (t.kind, t.text)) =
        Piece.faces (Piece.chain .start true right.toList) := by
  obtain ⟨front, stop, tokens, ends, -, faces⟩ :=
    tokens_ofText (joinTexts operator left right)
  obtain ⟨spelled', kinds, split⟩ := Piece.faces_joinTexts operator reads.whole reads'.whole
  rw [split] at faces
  obtain ⟨_, _, rfl, faces, isClose'⟩ := List.map_eq_append_iff.1 faces
  obtain ⟨_, _, rfl, faces, faces'⟩ := List.map_eq_append_iff.1 faces
  obtain ⟨_, _, rfl, faces, between⟩ := List.map_eq_append_iff.1 faces
  obtain ⟨opening, inside, rfl, opens, same⟩ := List.map_eq_cons_iff.1 faces
  obtain ⟨close, spelled, rfl, closes, words⟩ := List.map_eq_cons_iff.1 between
  obtain ⟨opening', inside', rfl, opens', same'⟩ := List.map_eq_cons_iff.1 faces'
  obtain ⟨close', rfl, closes'⟩ := List.map_eq_singleton_iff.1 isClose'
  refine ⟨opening, close, opening', close', stop, inside, spelled, inside', tokens,
    congrArg Prod.fst opens, congrArg Prod.fst closes, ?_, congrArg Prod.fst opens',
    congrArg Prod.fst closes', ends, same, same'⟩
  have same := congrArg (List.map Prod.fst) words
  rw [List.map_map, List.map_map] at same
  exact same.trans kinds

/-- The set operation is one query, with the clauses of the first operand and the second operand
joined to them. -/
theorem query_of_joinTexts (operator : SetOperator) (reads : ReadsAs left query)
    (reads' : ReadsAs right query')
    (faultless : (ParseResult.ofText (joinTexts operator left right)).errors = []) :
    ∃ whole, (ParseResult.ofText (joinTexts operator left right)).script.queries = [whole] ∧
      whole.commonMarks = [] ∧ whole.ownMarks = query.ownMarks ∧
      whole.joinedMarks = query'.outline.marks := by
  obtain ⟨opening, close, opening', close', stop, inside, spelled, inside', tokens, opens, closes,
    spells, opens', closes', ends, faces, faces'⟩ :=
    TokenStream.tokens_joinTexts operator reads reads'
  obtain ⟨first, more, rfl⟩ : ∃ first more, spelled = first :: more := by
    cases spelled with
    | nil => cases operator <;> cases spells
    | cons first more => exact ⟨first, more, rfl⟩
  obtain ⟨batch, c, alone, along⟩ := reads.enclosed faces
  obtain ⟨batch', c', alone', along'⟩ := reads'.enclosed faces'
  let last := Border.ofEnd closes' ends
  obtain ⟨d', isD'⟩ := Cursor.exists_tokens (along' last).ne_nil_right
  have second : Along last c'.tokens d'.tokens := isD' ▸ along' last
  let border := Border.ofOperator closes spells opens' second ends rfl alone'
  obtain ⟨d, isD⟩ := Cursor.exists_tokens (along border).ne_nil_right
  have behind : inside ++ close :: first :: more ++ opening' :: inside' ++ [close'] ++ [stop] =
      d.tokens := by
    rw [isD]
    show _ = inside ++ close :: first :: (more ++ opening' :: d'.tokens)
    rw [isD']
    simp [last, Border.ofEnd]
  have closed : Closed d.tokens := by
    rw [← behind]
    exact closed_concat _ (by simp [Token.isEnd, ends])
  have oneBatch : ∀ t ∈ inside ++ close :: first :: more ++ opening' :: inside' ++ [close'],
      t.endsBatch = false := by
    have words (t : Token) (member : t ∈ first :: more) : t.endsBatch = false := by
      have kind : t.kind ∈ operator.keywords.map .keyword := spells ▸ List.mem_map_of_mem member
      obtain ⟨k, -, is⟩ := List.mem_map.1 kind
      simp [Token.endsBatch, Token.isSeparator, Token.isEnd, ← is]
    have paren {t : Token} {p : Punctuation} (kind : t.kind = .punctuation p) :
        t.endsBatch = false := by simp [Token.endsBatch, Token.isSeparator, Token.isEnd, kind]
    simp only [List.forall_mem_append, List.forall_mem_cons]
    exact ⟨⟨⟨batch, paren closes, List.forall_mem_cons.1 words⟩, paren opens', batch'⟩,
      paren closes', List.forall_mem_nil _⟩
  have reading {r : Option Query} {s : State} (run : (level nestingLimit).query ⟨⟨opening,
      inside ++ close :: first :: more ++ opening' :: inside' ++ [close'] ++ [stop]⟩, []⟩ = (r, s))
      (quiet : s.reported = []) :=
    Parser.query_operands closes spells opens opens' second ends rfl alone' (isD ▸ along border)
      closed alone (behind ▸ run) quiet
  have stream : TokenStream.ofText (joinTexts operator left right) =
      ⟨opening :: (inside ++ close :: first :: more ++ opening' :: inside' ++ [close']) ++ [stop],
        (TokenStream.ofText (joinTexts operator left right)).errors⟩ := by
    rw [← tokens]
  rw [ParseResult.ofText, stream] at faultless ⊢
  obtain ⟨whole, s, one, run, quiet⟩ := ParseResult.ofTokens_opening opens oneBatch ends faultless
    fun r s run quiet => by
      obtain ⟨-, -, rfl, -⟩ := reading run quiet
      simp [Cursor.isAtEnd, Token.isEnd, last, Border.ofEnd, ends]
  obtain ⟨whole', found, -, marks⟩ := reading run quiet
  obtain rfl := Option.some.inj found
  exact ⟨whole, one, marks⟩

/-- Without the keyword there are no common tables. -/
theorem ReadsAs.commonMarks_eq_nil (reads : ReadsAs left query)
    (noWith : ∀ t ∈ (TokenStream.ofText left).tokens, t.kind ≠ .keyword .with) :
    query.commonMarks = [] := by
  obtain ⟨front, stop, tokens, -, -, -, before, c₁, c₂, split, -, -, run, -⟩ := reads.alone
  have first : c₁.current ∈ (TokenStream.ofText left).tokens := by
    rw [tokens, split]
    exact List.mem_append_right before List.mem_cons_self
  obtain ⟨r, -, found⟩ := @Parser.query_noWith c₁ 39 (some query) ⟨c₂, []⟩ (noWith _ first) run
  cases r with
  | none => cases found
  | some query' =>
      obtain rfl := Option.some.inj found
      rfl

theorem append_eq_around_iff {before own behind rest : List α} :
    own ++ rest = before ++ own ++ behind ++ rest ↔ before ++ behind = [] := by
  constructor
  · intro same
    have length := congrArg List.length same
    simp only [List.length_append] at length
    apply List.eq_nil_of_length_eq_zero
    rw [List.length_append]
    omega
  · intro none_
    obtain ⟨rfl, rfl⟩ := List.append_eq_nil_iff.1 none_
    rw [List.nil_append, List.append_nil]

/-- The names in a set operation of two queries in parentheses: those of the clauses of the first
and all those of the second. So nothing is lost exactly if the common tables of the first query and
the queries that a set operator joins to it hold no names. -/
theorem names_of_joinTexts (operator : SetOperator) (reads : ReadsAs left query)
    (reads' : ReadsAs right query')
    (faultless : (ParseResult.ofText (joinTexts operator left right)).errors = []) :
    tableNames (joinTexts operator left right) =
        Mark.tables query.ownMarks ++ tableNames right ∧
      fieldNames (joinTexts operator left right) =
        Mark.fields query.ownMarks ++ fieldNames right ∧
      (KeepsOperands operator left right ↔
        Mark.tables (query.commonMarks ++ query.joinedMarks) = [] ∧
          Mark.fields (query.commonMarks ++ query.joinedMarks) = []) ∧
      ((∀ t ∈ (TokenStream.ofText left).tokens, t.kind ≠ .keyword .with) →
        (KeepsOperands operator left right ↔
          Mark.tables query.joinedMarks = [] ∧ Mark.fields query.joinedMarks = [])) := by
  obtain ⟨whole, one, noCommon, own, joined⟩ := query_of_joinTexts operator reads reads' faultless
  have marks : (ParseResult.ofText (joinTexts operator left right)).script.marks =
      query.ownMarks ++ (ParseResult.ofText right).script.marks := by
    simp [Script.marks, reads'.queries, one, Query.marks_outline whole, noCommon, own, joined]
  have first : (ParseResult.ofText left).script.marks =
      query.commonMarks ++ query.ownMarks ++ query.joinedMarks := by
    simp [Script.marks, reads.queries, Query.marks_outline]
  have tables : tableNames (joinTexts operator left right) =
      Mark.tables query.ownMarks ++ tableNames right := by
    rw [tableNames, tableNames, Script.tableNames_eq_marks, Script.tableNames_eq_marks, marks,
      Mark.tables_append]
  have fields : fieldNames (joinTexts operator left right) =
      Mark.fields query.ownMarks ++ fieldNames right := by
    rw [fieldNames, fieldNames, Script.fieldNames_eq_marks, Script.fieldNames_eq_marks, marks,
      Mark.fields_append]
  have exactly : KeepsOperands operator left right ↔
      Mark.tables (query.commonMarks ++ query.joinedMarks) = [] ∧
        Mark.fields (query.commonMarks ++ query.joinedMarks) = [] := by
    have firstTables : tableNames left = Mark.tables query.commonMarks ++
        Mark.tables query.ownMarks ++ Mark.tables query.joinedMarks := by
      rw [tableNames, Script.tableNames_eq_marks, first, Mark.tables_append, Mark.tables_append]
    have firstFields : fieldNames left = Mark.fields query.commonMarks ++
        Mark.fields query.ownMarks ++ Mark.fields query.joinedMarks := by
      rw [fieldNames, Script.fieldNames_eq_marks, first, Mark.fields_append, Mark.fields_append]
    rw [KeepsOperands, tables, fields, firstTables, firstFields, append_eq_around_iff,
      append_eq_around_iff, Mark.tables_append, Mark.fields_append]
  refine ⟨tables, fields, exactly, fun noWith => ?_⟩
  rw [exactly, reads.commonMarks_eq_nil noWith, List.nil_append]

/-- With a set operation in the second pair of parentheses only. -/
theorem names_of_joinTexts_chain :
    let left := "SELECT a, 1 FROM t -- first"
    let right := "SELECT b FROM u EXCEPT SELECT c FROM v"
    (∃ query, ReadsAs left query) ∧ (∃ query, ReadsAs right query) ∧
      (∀ t ∈ (TokenStream.ofText left).tokens, t.kind ≠ .keyword .with) ∧
      (ParseResult.ofText (joinTexts .unionAll left right)).errors = [] ∧
      KeepsOperands .unionAll left right := by
  intro left right
  obtain ⟨one, one', words, faultless, joined⟩ :
      isOneQuery left = true ∧ isOneQuery right = true ∧
      (TokenStream.ofText left).tokens.all (!·.isKeyword .with) = true ∧
      (ParseResult.ofText (joinTexts .unionAll left right)).errors = [] ∧
      (ParseResult.ofText left).script.queries.map (·.joinedMarks) = [[]] := by decide +kernel
  obtain ⟨query, reads⟩ := isOneQuery_iff.1 one
  obtain ⟨query', reads'⟩ := isOneQuery_iff.1 one'
  have noWith : ∀ t ∈ (TokenStream.ofText left).tokens, t.kind ≠ .keyword .with := by
    simpa [Token.isKeyword] using words
  have none_ : query.joinedMarks = [] := by
    rw [reads.queries] at joined
    exact (List.cons.inj joined).1
  have keeps := (names_of_joinTexts .unionAll reads reads' faultless).2.2.2 noWith
  refine ⟨⟨query, reads⟩, ⟨query', reads'⟩, noWith, faultless, keeps.2 ?_⟩
  rw [none_]
  exact ⟨rfl, rfl⟩

/-- The query that is joined to the first inside of its parentheses is lost. -/
theorem operand_lost_in_first_parentheses :
    let left := "SELECT a FROM A UNION SELECT b FROM B"
    let right := "SELECT c FROM C"
    (∃ query, ReadsAs left query) ∧ (∃ query, ReadsAs right query) ∧
      (∀ t ∈ (TokenStream.ofText left).tokens, t.kind ≠ .keyword .with) ∧
      (∀ t ∈ (TokenStream.ofText right).tokens, t.kind ≠ .keyword .with) ∧
      (ParseResult.ofText (joinTexts .union left right)).errors = [] ∧
      tableNames left = ["A", "B"] ∧ tableNames right = ["C"] ∧
      tableNames (joinTexts .union left right) = ["A", "C"] ∧
      ¬KeepsOperands .union left right := by
  intro left right
  obtain ⟨one, one', words, words', faultless, first, second, both⟩ :
      isOneQuery left = true ∧ isOneQuery right = true ∧
      (TokenStream.ofText left).tokens.all (!·.isKeyword .with) = true ∧
      (TokenStream.ofText right).tokens.all (!·.isKeyword .with) = true ∧
      (ParseResult.ofText (joinTexts .union left right)).errors = [] ∧
      tableNames left = ["A", "B"] ∧ tableNames right = ["C"] ∧
      tableNames (joinTexts .union left right) = ["A", "C"] := by decide +kernel
  refine ⟨isOneQuery_iff.1 one, isOneQuery_iff.1 one', by simpa [Token.isKeyword] using words,
    by simpa [Token.isKeyword] using words', faultless, first, second, both, fun keeps => ?_⟩
  have tables := keeps.1
  rw [first, second, both] at tables
  contradiction

end QueryNames
