import QueryNames.Proofs.Dangling.Query
import QueryNames.Proofs.Written.SourceReading

/-!
Operators that nothing follows. Main statement: behind a condition such an operator costs one error
and nothing of the condition, unless a group behind `WITHIN` is left open in it.
-/

namespace QueryNames

namespace Grammar

open Grammar.Parser

section Clause

variable {x : Overhang}

theorem Overhang.noEndOfClause (joins : x.next.kind.joins = true) : endsClause x.next = false :=
  TokenKind.forall_joins (p := fun k => ∀ t : Token, t.kind = k → endsClause t = false)
    (fun _ is => by simp [endsClause, is, Keyword.endsClause, Keyword.startsOtherStatement])
    (fun _ is => by simp [endsClause, is, Keyword.endsClause, Keyword.startsOtherStatement])
    (fun _ is => by simp [endsClause, is]) (fun _ _ is => by simp [endsClause, is]) _ joins _ rfl

/-- An operator that no expression has read does not belong to the clause. -/
theorem finishClause_operator {last : Token} (hangs : x.Hangs last) :
    finishClause true ⟨x.right, []⟩ =
      (some (), ⟨⟨last, []⟩, [⟨.grammatical (.surplus x.next.found .endOfClause),
        x.next.location⟩]⟩) := by
  have surplus : onlyIf (true && !endsClause x.right.current) (reportSurplus .endOfClause)
      ⟨x.right, []⟩ = (some (some ()), ⟨x.right,
        [⟨.grammatical (.surplus x.next.found .endOfClause), x.next.location⟩]⟩) := by
    have noEnd : endsClause x.right.current = false := Overhang.noEndOfClause hangs.joins
    rw [noEnd]
    rfl
  have opens : x.next.kind ≠ .punctuation .leftParen :=
    ne_of_apply_ne TokenKind.joins (by rw [hangs.joins]; decide)
  have closes : x.next.kind ≠ .punctuation .rightParen :=
    ne_of_apply_ne TokenKind.joins (by rw [hangs.joins]; decide)
  have passed : x.right.skipUntil endsClause = ⟨last, []⟩ := by
    have other :=
      @Cursor.skipFrom_other endsClause x.next ⟨last, []⟩ x.goesOn_right opens closes 0
    rw [Overhang.noEndOfClause hangs.joins, Bool.and_false, if_neg Bool.false_ne_true] at other
    rw [Overhang.right, hangs.behind]
    exact other
  rw [finishClause, bind_current, bind_some surplus, Parser.skipUntil, move, passed]

variable {inner : Level} [inner.Dangles x]

/-- A condition up to the end is the same before the operator, which is complained of. -/
theorem expressionClause_overhang {word : Token} (isWhere : word.kind = .keyword .where)
    {last : Token} (hangs : x.Hangs last) {c d : Cursor} (paired : x.Paired c d) {w : Expression}
    (run : inner.expression ⟨c, []⟩ = (some w, ⟨x.left, []⟩)) :
    expressionClause inner .where ⟨⟨word, c.tokens⟩, []⟩ = (some (some w), ⟨x.left, []⟩) ∧
      ∃ complaint, expressionClause inner .where ⟨⟨word, d.tokens⟩, []⟩ =
        (some (some w), ⟨⟨last, []⟩, [complaint]⟩) := by
  have atEnd (t : Token) (isEnd : t.kind = .endOfInput) (reported : List Diagnostic) :
      finishClause true ⟨⟨t, []⟩, reported⟩ = (some (), ⟨⟨t, []⟩, reported⟩) :=
    finishClause_eq (by simp [endsClause, isEnd])
  have clause {e : Cursor} {s s' : State} (read : inner.expression ⟨e, []⟩ = (some w, s))
      (finished : finishClause true s = (some (), s')) :
      expressionClause inner .where ⟨⟨word, e.tokens⟩, []⟩ = (some (some w), s') := by
    have accepted : acceptKeyword .where ⟨⟨word, e.tokens⟩, []⟩ = (some true, ⟨e, []⟩) := by
      rw [acceptKeyword, accept_present (by simp [Token.isKeyword, isWhere]),
        Cursor.advance_step (by rw [isWhere]; nofun)]
    have tried : attempt inner.expression ⟨e, []⟩ = (some (some w), s) := by rw [attempt, read]
    rw [expressionClause, bind_some accepted, if_pos rfl, bind_some tried]
    dsimp only [Option.isSome]
    rw [bind_some finished]
    rfl
  refine ⟨clause run (atEnd x.stop x.isStop []), ?_⟩
  have dangles : Dangles x 0 inner.expression := Level.Dangles.expression
  rcases dangles.runs paired (.zero c) with complained | ⟨e?, c', d', found, found', paired'⟩ |
    ⟨last', e, complaint, hangs', found, found'⟩
  · rw [run] at complained
    exact absurd rfl complained
  · rw [run] at found
    cases found
    rcases paired'.view with ⟨-, rfl⟩ | ⟨t, c'', d'', goesOn, same, -, -⟩
    · exact ⟨_, clause found' (finishClause_operator hangs)⟩
    · have isStop : x.stop = t := congrArg Cursor.current same
      exact absurd (isStop ▸ x.isStop) goesOn
  · rw [run] at found
    cases found
    obtain rfl : last' = last := (List.cons.inj (hangs'.behind.symm.trans hangs.behind)).1
    exact ⟨_, clause found' (atEnd last' hangs.isLast _)⟩

end Clause

/-- A query of one number from one table, up to its condition. -/
theorem selectQuery_where {first one middle table word : Token} {n : Nat}
    (isSelect : first.kind = .keyword .select) (isNumber : one.kind = .numberLiteral)
    (isFrom : middle.kind = .keyword .from) (delimited : table.isDelimited = true)
    (isWhere : word.kind = .keyword .where) {c : Cursor} {s : State} {condition : Option Expression}
    (clause : expressionClause (level (n + 2)) .where ⟨⟨word, c.tokens⟩, []⟩ = (some condition, s))
    (ends : s.cursor.current.kind = .endOfInput) :
    (level (n + 3)).query ⟨⟨first, one :: middle :: table :: word :: c.tokens⟩, []⟩ =
      (some { location := first.location
              items := [.expression (.literal (.number one.text)) none]
              sources := [.named ⟨⟨.ofToken table, []⟩, none⟩]
              condition }, s) := by
  have number : Written (n + 1) (.at .disjunction) [one] (.literal (.number one.text)) :=
    Written.loosen (.leaf (by simp [leaf?, isNumber])) .disjunction (by decide)
  have item : Yields (selectItem (level (n + 2))) [one]
      (.expression (.literal (.number one.text)) none) (endsItem ·) := by
    apply selectItem_expression
    · show one.kind ≠ _
      simp [isNumber]
    · intro s _
      rw [State.tokens_prepend]
      exact startsWithQualifiedStar_of_kind (by simp [isNumber])
    · exact fun s ends => kind_ne_of_endsItem ends rfl
    · exact number.expression
  have source : WrittenSource (n + 2) .list [table] [.named ⟨⟨.ofToken table, []⟩, none⟩] _ :=
    .last (.single (.named (.parts delimited .nil) .absent))
  have begins : BeginsItems one := by simp [BeginsItems, endsClause, isNumber]
  have follows : EndsList word := by
    simp [EndsList, endsItem, endsClause, isWhere, Keyword.endsClause]
  have read := @selectQuery_run _ ⟨⟨word, c.tokens⟩, []⟩ first middle [one] [table] _ _ _ s isSelect
    begins (commaList_one item) isFrom source.yields follows clause (.inl ends)
  exact queryStatement_run isSelect read (.inl ends) rfl

end Grammar

namespace ParseResult

open Grammar Grammar.Parser

/-- Where the tokens `ts` are a condition up to the end of the input, an operator behind them is one
error, and leaves the query as it is. Of what is passed over behind `WITHIN`, no group may be left
open, since one that is takes the operator in. -/
theorem ofTokens_danglingOperator {first one middle table word operator stop last : Token}
    {ts : List Token} {w : Expression} (isSelect : first.kind = .keyword .select)
    (isNumber : one.kind = .numberLiteral) (isFrom : middle.kind = .keyword .from)
    (delimited : table.isDelimited = true) (isWhere : word.kind = .keyword .where)
    (joins : operator.kind.joins = true) (isStop : stop.kind = .endOfInput)
    (isLast : last.kind = .endOfInput) (whole : ∀ t ∈ ts, t.endsBatch = false)
    (usedUp : (level (nestingLimit - 1)).expression ⟨.ofTokens (ts ++ [stop]), []⟩ =
      (some w, ⟨⟨stop, []⟩, []⟩))
    (closed : ¬OrderingLeftOpen (ts ++ [stop])) :
    let query : Query :=
      { location := first.location
        items := [.expression (.literal (.number one.text)) none]
        sources := [.named ⟨⟨.ofToken table, []⟩, none⟩]
        condition := some w }
    ofTokens ⟨first :: one :: middle :: table :: word :: ts ++ [stop], []⟩ = ⟨⟨[query]⟩, []⟩ ∧
      ∃ error, ofTokens ⟨first :: one :: middle :: table :: word :: ts ++ [operator, last], []⟩ =
        ⟨⟨[query]⟩, [error]⟩ := by
  intro query
  have goesOn (t : Token) (member : t ∈ ts) : t.kind ≠ .endOfInput :=
    Token.kind_ne_of_endsBatch (whole t member)
  let x : Overhang := ⟨ts, stop, operator, [last], goesOn, isStop,
    TokenKind.follows_of_joins joins, fun _ => ⟨last, isLast, rfl⟩, closed⟩
  obtain ⟨c, left⟩ := @Cursor.exists_tokens (ts ++ [stop]) (by simp)
  obtain ⟨d, right⟩ := @Cursor.exists_tokens (ts ++ [operator, last]) (by simp)
  have paired : x.Paired c d := ⟨[], ts, rfl, left, right⟩
  have run : (level (nestingLimit - 1)).expression ⟨c, []⟩ = (some w, ⟨x.left, []⟩) := by
    have closedTokens : Closed c.tokens := left ▸ closed_concat ts (Token.isEnd_iff.2 isStop)
    rwa [← left, Cursor.ofTokens_tokens closedTokens] at usedUp
  obtain ⟨clause, error, clause'⟩ :=
    expressionClause_overhang isWhere ⟨joins, isLast, rfl⟩ paired run
  have plain := @selectQuery_where _ _ _ _ _ 37 isSelect isNumber isFrom delimited isWhere _ _ _
    clause isStop
  have dangling := @selectQuery_where _ _ _ _ _ 37 isSelect isNumber isFrom delimited isWhere _ _ _
    clause' isLast
  have inside (us : List Token) (whole : ∀ t ∈ us, t.endsBatch = false) :
      ∀ t ∈ one :: middle :: table :: word :: us, t.endsBatch = false := by
    simp only [List.forall_mem_cons]
    exact ⟨endsBatch_of_kind isNumber (by decide), endsBatch_of_keyword isFrom,
      endsBatch_of_kind (Token.kind_of_isDelimited delimited) (by decide),
      endsBatch_of_keyword isWhere, whole⟩
  have operators : operator.endsBatch = false :=
    TokenKind.forall_joins (p := fun k => ∀ t : Token, t.kind = k → t.endsBatch = false)
      (fun _ is => endsBatch_of_keyword is) (fun _ is => endsBatch_of_keyword is)
      (fun _ is => endsBatch_of_kind is (by decide))
      (fun _ _ is => endsBatch_of_kind is ⟨by simp, by simp⟩) _ joins _ rfl
  constructor
  · rw [left] at plain
    have read := ofTokens_run isSelect (inside ts whole) isStop plain
    rwa [List.reverse_nil, Diagnostic.sort_nil, Diagnostic.sort_nil] at read
  · have longer : ts ++ [operator, last] = ts ++ [operator] ++ [last] := by simp
    have whole' : ∀ t ∈ ts ++ [operator], t.endsBatch = false :=
      List.forall_mem_append.2 ⟨whole, List.forall_mem_singleton.2 operators⟩
    rw [right, longer] at dangling
    have read := ofTokens_run isSelect (inside _ whole') isLast dangling
    have sorted : Diagnostic.sort [error] = [error] := by simp [Diagnostic.sort]
    rw [List.reverse_singleton, sorted, sorted] at read
    have same : first :: one :: middle :: table :: word :: ts ++ [operator, last] =
        first :: (one :: middle :: table :: word :: (ts ++ [operator])) ++ [last] := by simp
    exact ⟨error, same ▸ read⟩

/-- A condition with and without an operator behind it. -/
theorem ofText_operator_last :
    let text := "SELECT 1 FROM [T] WHERE [a] = 2"
    let place (offset : Nat) : Location := ⟨offset, 1, offset + 1⟩
    let column : Expression :=
      .column ⟨some ⟨⟨"a", some .bracket, place 24⟩, []⟩, .regular, place 24⟩
    let query : Query :=
      { location := place 0
        items := [.expression (.literal (.number "1")) none]
        sources := [.named ⟨⟨⟨"T", some .bracket, place 14⟩, []⟩, none⟩]
        condition := some (.binary .eq column (.literal (.number "2"))) }
    ofText text = ⟨⟨[query]⟩, []⟩ ∧ ∃ error, ofText (text ++ " OR") = ⟨⟨[query]⟩, [error]⟩ := by
  intro text place column query
  let token (kind : TokenKind) (text : String) (offset : Nat) : Token := ⟨kind, text, place offset⟩
  let table := token .identifier "[T]" 14
  let a := token .identifier "[a]" 24
  let front := [token (.keyword .select) "SELECT" 0, token .numberLiteral "1" 7,
    token (.keyword .from) "FROM" 9, table, token (.keyword .where) "WHERE" 18]
  let ts := [a, token (.operator .eq) "=" 28, token .numberLiteral "2" 30]
  let stop := token .endOfInput "" 31
  let operator := token (.keyword .or) "OR" 32
  let last := token .endOfInput "" 34
  have stream : (TokenStream.ofText text).tokens = front ++ ts ++ [stop] ∧
      (TokenStream.ofText text).errors = [] ∧
      (TokenStream.ofText (text ++ " OR")).tokens = front ++ ts ++ [operator, last] ∧
      (TokenStream.ofText (text ++ " OR")).errors = [] := by
    decide +kernel
  obtain ⟨tokens, errors, tokens', errors'⟩ := stream
  have plain : TokenStream.ofText text = ⟨front ++ ts ++ [stop], []⟩ :=
    congr (congrArg TokenStream.mk tokens) errors
  have dangling : TokenStream.ofText (text ++ " OR") = ⟨front ++ ts ++ [operator, last], []⟩ :=
    congr (congrArg TokenStream.mk tokens') errors'
  have known : a.isDelimited = true ∧ table.isDelimited = true ∧
      Identifier.ofToken a = ⟨"a", some .bracket, place 24⟩ ∧
      Identifier.ofToken table = ⟨"T", some .bracket, place 14⟩ := by
    decide +kernel
  obtain ⟨delimited, delimitedTable, name, nameTable⟩ := known
  have written : Written (nestingLimit - 2) (.at .disjunction) ts (.binary .eq
      (.column ⟨some ⟨.ofToken a, []⟩, .regular, place 24⟩) (.literal (.number "2"))) :=
    Written.loosen (.comparison (t := token (.operator .eq) "=" 28) rfl
      (Written.loosen (.column (.parts delimited .nil)) .additive (by decide))
      (Written.loosen (.leaf (t := token .numberLiteral "2" 30) rfl) .additive (by decide)))
      .disjunction (by decide)
  have usedUp := written.expression ⟨⟨stop, []⟩, []⟩ (Strength.stops_of_endsItem rfl)
  have read := @ofTokens_danglingOperator (token (.keyword .select) "SELECT" 0)
    (token .numberLiteral "1" 7) (token (.keyword .from) "FROM" 9) table
    (token (.keyword .where) "WHERE" 18) operator stop last ts _ rfl rfl rfl delimitedTable rfl rfl
    rfl rfl (by decide) usedUp (not_orderingLeftOpen (by decide +kernel))
  rw [name, nameTable] at read
  rw [ofText, ofText, plain, dangling]
  exact read

/-- What is passed over behind `WITHIN GROUP` takes the operator in, and nobody asks for what is
missing behind it. -/
theorem faultless_operator_in_ordering :
    let text := "SELECT 1 FROM [T] WHERE f(a) WITHIN GROUP (x"
    let condition := (TokenStream.ofText text).tokens.drop 5
    let read := (level (nestingLimit - 1)).expression ⟨.ofTokens condition, []⟩
    (ofText text).errors = [] ∧ read.1.isSome = true ∧
      read.2.cursor.isAtEnd = true ∧ read.2.reported = [] ∧
      (ofText (text ++ " +")).errors = [] := by
  decide +kernel

end ParseResult

end QueryNames
