import QueryNames.Proofs.Mark
import QueryNames.Proofs.Ordering.Call
import QueryNames.Proofs.Written.SourceReading

/-!
The names in an ordering behind the arguments of a call. Main statement: those in a window are
found, and those behind `WITHIN GROUP` are not.
-/

namespace QueryNames

open Grammar Grammar.Parser

/-- The tokens of `SELECT [f]([a]) WITHIN GROUP (ORDER BY …) FROM [T]` but for the items of the
ordering, and the `OVER` that has the place of `WITHIN GROUP` in a window. -/
structure OrderedCall where
  first : Token
  function : Token
  opening : Token
  argument : Token
  closing : Token
  within : Token
  group : Token
  overWord : Token
  left : Token
  order : Token
  word : Token
  right : Token
  middle : Token
  table : Token
  stop : Token
  isSelect : first.kind = .keyword .select
  isFunction : function.isDelimited = true
  opens : opening.kind = .punctuation .leftParen
  isArgument : argument.isDelimited = true
  closes : closing.kind = .punctuation .rightParen
  isWithin : within.isWord "WITHIN" = true
  isGroup : group.kind = .keyword .group
  isOver : overWord.kind = .keyword .over
  isLeft : left.kind = .punctuation .leftParen
  isOrder : order.kind = .keyword .order
  isBy : word.kind = .keyword .by
  isRight : right.kind = .punctuation .rightParen
  isFrom : middle.kind = .keyword .from
  isTable : table.isDelimited = true
  isStop : stop.kind = .endOfInput

namespace OrderedCall

variable (x : OrderedCall) (us : List Token)

/-- The ordering by `us`. -/
def ordering : List Token := x.left :: x.order :: x.word :: (us ++ [x.right])

/-- With the tokens behind the arguments of the call. -/
def tokens (tail : List Token) : List Token :=
  x.first :: x.function :: x.opening :: x.argument :: x.closing :: (tail ++ [x.middle, x.table]) ++
    [x.stop]

/-- With the ordering behind `WITHIN GROUP`. -/
def aggregate : List Token := x.tokens (x.within :: x.group :: x.ordering us)

/-- With the ordering in a window. -/
def windowed : List Token := x.tokens (x.overWord :: x.ordering us)

def column : Identifier := .ofToken x.argument

def tableName : Identifier := .ofToken x.table

/-- The names in the items are found, behind the column of the arguments and before the table. -/
structure FindsOrdering (items : List OrderItem) (result : ParseResult) : Prop where
  fieldNames : result.script.fieldNames =
    x.column.value :: Mark.fields (items.flatMap (·.outline.marks))
  tableNames : result.script.tableNames =
    Mark.tables (items.flatMap (·.outline.marks)) ++ [x.tableName.value]

/-! Reading the text. -/

def call (window : Option Window) : Expression :=
  .function ⟨.ofToken x.function, []⟩
    [.column ⟨some ⟨x.column, []⟩, .regular, x.column.location⟩] false window

def source : TableSource := .named ⟨⟨x.tableName, []⟩, none⟩

def query (window : Option Window) (sources : List TableSource) : Query :=
  { location := x.first.location, items := [.expression (x.call window) none], sources }

/-- At the end of the input. -/
def last : State := ⟨⟨x.stop, []⟩, []⟩

/-- The call is read from its name on as what stands behind its arguments tells. -/
theorem primary_call {n : Nat} {tail : List Token} {s : State} {window : Option Window}
    (read : ∀ name list, callTail (level (n + 1)) name list false (x.last.prepend tail) =
      (some (.function name list false window), s)) :
    primary (level (n + 1))
        (x.last.prepend (x.function :: x.opening :: x.argument :: x.closing :: tail)) =
      (some (x.call window), s) := by
  have function : WrittenName [x.function] ⟨.ofToken x.function, []⟩ := .parts x.isFunction .nil
  have argument : Written (n + 1) (.list true) [x.argument]
      [.column ⟨some ⟨x.column, []⟩, .regular, x.column.location⟩] :=
    .last (.argument (Written.loosen (.column (.parts x.isArgument .nil)) .disjunction (by decide)))
  have noFlag : Next [x.argument, x.closing] (fun _ => True)
      fun t => t.kind ≠ .keyword .distinct ∧ t.kind ≠ .keyword .all := by
    show x.argument.kind ≠ _ ∧ x.argument.kind ≠ _
    rw [Token.kind_of_isDelimited x.isArgument]
    exact ⟨by decide, by decide⟩
  have group : Yields (arguments (level (n + 1))) [x.argument, x.closing]
      [.column ⟨some ⟨x.column, []⟩, .regular, x.column.location⟩] fun _ => True :=
    arguments_list argument.yields argument.opens x.closes
  let name : QualifiedName := ⟨.ofToken x.function, []⟩
  have called : Parser.call (level (n + 1)) name
      ((x.last.prepend tail).prepend (x.opening :: ([] ++ [x.argument, x.closing]))) = _ :=
    call_arguments x.opens .absent noFlag group trivial
  have named : primary (level (n + 1))
      (x.last.prepend ([x.function] ++ x.opening :: x.argument :: x.closing :: tail)) = _ :=
    primary_called function x.opens
  simp only [State.prepend_prepend, List.nil_append, List.cons_append] at called named
  rw [named, called, read]
  rfl

/-- A query of the call and of what is left of the text behind it. -/
theorem ofTokens_tokens {tail : List Token} {s : State} {window : Option Window}
    {sources : List TableSource} (whole : ∀ t ∈ tail, t.endsBatch = false)
    (read : ∀ name list, callTail (level 38) name list false
      (x.last.prepend (tail ++ [x.middle, x.table])) =
        (some (.function name list false window), s))
    (behind : s.cursor.current.kind = .keyword .from ∨ s.cursor.current.kind = .endOfInput)
    (fromRead : fromClause (level 39) s = (some sources, x.last)) :
    ParseResult.ofTokens ⟨x.tokens tail, []⟩ = ⟨⟨[x.query window sources]⟩, []⟩ := by
  let rest := x.opening :: x.argument :: x.closing :: (tail ++ [x.middle, x.table])
  have isName : x.function.kind = .identifier := Token.kind_of_isDelimited x.isFunction
  have follows : EndsList s.cursor.current := by
    rcases behind with kind | kind <;>
      simp [EndsList, endsItem, endsClause, kind, Keyword.endsClause]
  have noInto : s.cursor.current.kind ≠ .keyword .into := by
    rcases behind with kind | kind <;> rw [kind] <;> decide
  have noStars : startsWithQualifiedStar (x.last.prepend (x.function :: rest)).cursor.tokens =
      false := by
    simp [rest, startsWithQualifiedStar, Token.isPunctuation, x.opens]
  have unassigned : ((x.last.prepend (x.function :: rest)).cursor.peek 1).kind ≠ .operator .eq := by
    simp [rest, x.opens]
  have begins : Strength.primary.Begins x.function :=
    WrittenName.opens (.parts x.isFunction .nil : WrittenName [x.function] _) .primary
  have item : selectItem (level 39) (x.last.prepend (x.function :: rest)) =
      (some (.expression (x.call window) none), s) := by
    apply selectItem_run (by simp [isName]) noStars unassigned _ follows.1
    exact Strength.disjunction_primary begins (x.primary_call read)
      (Strength.stops_of_endsItem follows.1)
  have starts : BeginsItems x.function := by simp [BeginsItems, endsClause, isName]
  have query : selectQuery (level 39) (x.last.prepend (x.first :: x.function :: rest)) =
      (some (x.query window sources), x.last) := by
    have read := selectQuery_parts (s := x.last.prepend (x.function :: rest)) x.isSelect starts
      (commaList_run item follows.closes) noInto fromRead
      (expressionClause_absent x.isStop (by decide)) (.inl x.isStop)
    rwa [State.prepend_prepend] at read
  have run : (level nestingLimit).query (x.last.prepend (x.first :: x.function :: rest)) =
      (some (x.query window sources), x.last) :=
    queryStatement_run x.isSelect query (.inl x.isStop) rfl
  have oneBatch : ∀ t ∈ x.function :: rest, t.endsBatch = false := by
    simp only [rest, List.forall_mem_cons, List.forall_mem_append]
    exact ⟨endsBatch_of_kind isName (by decide), endsBatch_of_punctuation x.opens,
      endsBatch_of_kind (Token.kind_of_isDelimited x.isArgument) (by decide),
      endsBatch_of_punctuation x.closes, whole, endsBatch_of_keyword x.isFrom,
      endsBatch_of_kind (Token.kind_of_isDelimited x.isTable) (by decide),
      List.forall_mem_nil _⟩
  rw [last, State.prepend_last] at run
  have found := ParseResult.ofTokens_run x.isSelect oneBatch x.isStop run
  rwa [List.reverse_nil, Diagnostic.sort_nil, Diagnostic.sort_nil] at found

variable {us : List Token} {items : List OrderItem}

theorem endsBatch_ordering (whole : ∀ t ∈ us, t.endsBatch = false) :
    ∀ t ∈ x.ordering us, t.endsBatch = false := by
  simp only [ordering, List.forall_mem_cons, List.forall_mem_append]
  exact ⟨endsBatch_of_punctuation x.isLeft, endsBatch_of_keyword x.isOrder,
    endsBatch_of_keyword x.isBy, whole, endsBatch_of_punctuation x.isRight, List.forall_mem_nil _⟩

/-- From the `FROM` clause on. -/
def clause : State := x.last.prepend [x.middle, x.table]

theorem fromClause_clause : fromClause (level 39) x.clause = (some [x.source], x.last) := by
  have source : WrittenSource 39 .list [x.table] [.named ⟨⟨.ofToken x.table, []⟩, none⟩] _ :=
    .last (.single (.named (.parts x.isTable .nil) .absent))
  exact fromClause_yields x.isFrom source.yields x.last (EndsQuery.endsList (.inl x.isStop))

theorem ofTokens_windowed (ordered : OrderedBy 38 us items) (balanced : opened 0 us = some 0) :
    ParseResult.ofTokens ⟨x.windowed us, []⟩ = ⟨⟨[x.query (some ⟨[], items⟩) [x.source]]⟩, []⟩ := by
  have whole : ∀ t ∈ x.overWord :: x.ordering us, t.endsBatch = false :=
    List.forall_mem_cons.2 ⟨endsBatch_of_keyword x.isOver, x.endsBatch_ordering ordered.oneBatch⟩
  refine x.ofTokens_tokens (s := x.clause) whole (fun name list => ?_) (.inl x.isFrom)
    x.fromClause_clause
  have window : Yields (window (level 38)) (x.ordering us) ⟨[], items⟩ fun _ => True :=
    window_yields x.isLeft x.isOrder x.isBy (ordered.yields balanced) x.isRight
  have read : callTail (level 38) name list false
      (x.clause.prepend (x.overWord :: x.ordering us)) = _ :=
    callTail_over x.isOver window x.clause trivial
  rwa [clause, State.prepend_prepend] at read

/-- The ordering behind `WITHIN GROUP` is passed over, and what is behind it is read. -/
theorem ofTokens_aggregate {c : Cursor} {sources : List TableSource}
    (whole : ∀ t ∈ us, t.endsBatch = false)
    (skipped : Cursor.skipParenthesized ⟨x.left,
      x.order :: x.word :: (us ++ [x.right, x.middle, x.table, x.stop])⟩ = c)
    (behind : c.current.kind = .keyword .from ∨ c.current.kind = .endOfInput)
    (fromRead : fromClause (level 39) ⟨c, []⟩ = (some sources, x.last)) :
    ParseResult.ofTokens ⟨x.aggregate us, []⟩ = ⟨⟨[x.query none sources]⟩, []⟩ := by
  have isWord : x.within.kind = .identifier := Token.kind_of_isWord x.isWithin
  have oneBatch : ∀ t ∈ x.within :: x.group :: x.ordering us, t.endsBatch = false :=
    List.forall_mem_cons.2 ⟨endsBatch_of_kind isWord (by decide), List.forall_mem_cons.2
      ⟨endsBatch_of_keyword x.isGroup, x.endsBatch_ordering whole⟩⟩
  have noOver : c.current.kind ≠ .keyword .over := by
    rcases behind with kind | kind <;> rw [kind] <;> decide
  refine x.ofTokens_tokens (s := ⟨c, []⟩) oneBatch (fun name list => ?_) behind fromRead
  have group : x.last.prepend (x.ordering us ++ [x.middle, x.table]) =
      ⟨⟨x.left, x.order :: x.word :: (us ++ [x.right, x.middle, x.table, x.stop])⟩, []⟩ := by
    rw [ordering, List.cons_append, last, State.prepend_last]
    simp
  let ahead : Cursor :=
    ⟨x.left, x.order :: x.word :: (us ++ [x.right, x.middle, x.table, x.stop])⟩
  have read : callTail (level 38) name list false
      ((State.mk ahead []).prepend [x.within, x.group]) = _ :=
    callTail_within x.isWithin x.isGroup (skipped ▸ noOver)
  rwa [← group, State.prepend_prepend, skipped] at read

theorem ofTokens_aggregate_closed (whole : ∀ t ∈ us, t.endsBatch = false)
    (balanced : opened 0 us = some 0) :
    ParseResult.ofTokens ⟨x.aggregate us, []⟩ = ⟨⟨[x.query none [x.source]]⟩, []⟩ := by
  have goesOn : ∀ t ∈ x.order :: x.word :: us, t.isEnd = false := by
    simp only [List.forall_mem_cons]
    exact ⟨by simp [Token.isEnd, x.isOrder], by simp [Token.isEnd, x.isBy],
      fun t member => Token.isEnd_of_endsBatch (whole t member)⟩
  have body : opened 0 (x.order :: x.word :: us) = some 0 := by
    rw [opened_plain (by simp [Token.isParen, Token.isPunctuation, x.isOrder]),
      opened_plain (by simp [Token.isParen, Token.isPunctuation, x.isBy]), balanced]
  have skipped := Cursor.skipParenthesized_closed x.isLeft goesOn body x.isRight x.clause.cursor
  exact x.ofTokens_aggregate whole skipped (.inl x.isFrom) x.fromClause_clause

/-- A group that is left open in the ordering takes in what is behind the call. -/
theorem ofTokens_aggregate_open (whole : ∀ t ∈ us, t.endsBatch = false) {more : Nat}
    (unclosed : opened 0 us = some (more + 1)) :
    ParseResult.ofTokens ⟨x.aggregate us, []⟩ = ⟨⟨[x.query none []]⟩, []⟩ := by
  have goesOn : ∀ t ∈ x.order :: x.word :: (us ++ [x.right, x.middle, x.table]),
      t.isEnd = false := by
    simp only [List.forall_mem_cons, List.forall_mem_append]
    exact ⟨by simp [Token.isEnd, x.isOrder], by simp [Token.isEnd, x.isBy],
      fun t member => Token.isEnd_of_endsBatch (whole t member),
      by simp [Token.isEnd, x.isRight], by simp [Token.isEnd, x.isFrom],
      by simp [Token.isEnd, Token.kind_of_isDelimited x.isTable], List.forall_mem_nil _⟩
  have body : opened 0 (x.order :: x.word :: (us ++ [x.right, x.middle, x.table])) = some more := by
    rw [opened_plain (by simp [Token.isParen, Token.isPunctuation, x.isOrder]),
      opened_plain (by simp [Token.isParen, Token.isPunctuation, x.isBy]), opened_append, unclosed,
      Option.bind_some, opened_closing (Token.isPunctuation_iff.2 x.isRight),
      opened_plain (by simp [Token.isParen, Token.isPunctuation, x.isFrom]),
      opened_plain (by simp [Token.isParen, Token.isPunctuation,
        Token.kind_of_isDelimited x.isTable])]
    rfl
  have skipped := Cursor.skipParenthesized_open x.isLeft goesOn body x.isStop
  refine x.ofTokens_aggregate whole (c := ⟨x.stop, []⟩) ?_ (.inr x.isStop)
    (fromClause_absent x.isStop (by decide))
  rw [← skipped]
  simp

/-! The names that are found. -/

/-- The marks behind the column of the arguments. -/
def rest (window : Option Window) (sources : List TableSource) : List Mark :=
  (Window.outlines? window).flatMap Outline.marks ++ sources.flatMap (·.outline.marks)

theorem marks_query (window : Option Window) (sources : List TableSource) :
    Script.marks ⟨[x.query window sources]⟩ = .field x.column.value :: rest window sources := by
  simp [Script.marks, query, call, rest, Query.outline, SelectItem.outlines, SelectItem.outline,
    Expression.outline, Column.outline, Node.marks, QualifiedName.values, QualifiedName.parts,
    List.flatMap_map]

theorem fieldNames_query (window : Option Window) (sources : List TableSource) :
    Script.fieldNames ⟨[x.query window sources]⟩ =
      x.column.value :: Mark.fields (rest window sources) := by
  rw [Script.fieldNames_eq_marks, marks_query]
  rfl

theorem tableNames_query (window : Option Window) (sources : List TableSource) :
    Script.tableNames ⟨[x.query window sources]⟩ = Mark.tables (rest window sources) := by
  rw [Script.tableNames_eq_marks, marks_query]
  rfl

theorem rest_source (window : Option Window) :
    rest window [x.source] =
      (Window.outlines? window).flatMap Outline.marks ++ [.table x.tableName.value] := by
  simp [rest, source, TableSource.outline, NamedTable.outline, Node.marks, QualifiedName.base]

theorem rest_window : rest (some ⟨[], items⟩) [x.source] =
    items.flatMap (·.outline.marks) ++ [.table x.tableName.value] := by
  rw [rest_source]
  simp [List.flatMap_map]

end OrderedCall

namespace ParseResult

/-- In a window the names in an ordering are found, if its items can be read alone with the levels
left there. Behind `WITHIN GROUP` they are not, however many levels the items take, and there is no
error: all that is found before the table, if the groups in the ordering are closed, is the column
of the arguments. -/
theorem ofTokens_ordering (x : OrderedCall) {n : Nat} {us : List Token} {items : List OrderItem}
    (ordered : OrderedBy n us items) :
    let marks := items.flatMap (·.outline.marks)
    let aggregate := ofTokens ⟨x.aggregate us, []⟩
    let windowed := ofTokens ⟨x.windowed us, []⟩
    aggregate.errors = [] ∧ aggregate.script.fieldNames = [x.column.value] ∧
      (x.FindsOrdering items aggregate ↔
        balances 0 us = true ∧ Mark.fields marks = [] ∧ Mark.tables marks = []) ∧
      (n = nestingLimit - 2 → balances 0 us = true →
        windowed.errors = [] ∧ x.FindsOrdering items windowed) := by
  intro marks aggregate windowed
  obtain ⟨left, found⟩ := ordered.opened
  have whole := ordered.oneBatch
  -- the groups in the ordering are closed in it, or one of them takes in the table
  cases left with
  | zero =>
      have balanced : balances 0 us = true := by rw [balances_eq_opened, found]; rfl
      have passed : aggregate = ⟨⟨[x.query none [x.source]]⟩, []⟩ :=
        x.ofTokens_aggregate_closed whole found
      have read (levels : n = nestingLimit - 2) :
          windowed = ⟨⟨[x.query (some ⟨[], items⟩) [x.source]]⟩, []⟩ := by
        subst levels
        exact x.ofTokens_windowed ordered found
      have fields : aggregate.script.fieldNames = [x.column.value] := by
        rw [passed, x.fieldNames_query, x.rest_source]
        rfl
      have tables : aggregate.script.tableNames = [x.tableName.value] := by
        rw [passed, x.tableNames_query, x.rest_source]
        rfl
      refine ⟨by rw [passed], fields, ⟨?_, ?_⟩, fun levels _ => ⟨by rw [read levels], ?_, ?_⟩⟩
      · rintro ⟨fieldNames, tableNames⟩
        rw [fields] at fieldNames
        rw [tables] at tableNames
        refine ⟨balanced, (List.cons.inj fieldNames).2.symm, ?_⟩
        exact List.self_eq_append_left.1 tableNames
      · rintro ⟨-, noField, noTable⟩
        exact ⟨fields.trans (by rw [noField]), tables.trans (by rw [noTable]; rfl)⟩
      · rw [read levels, x.fieldNames_query, x.rest_window, Mark.fields_append]
        exact congrArg _ (List.append_nil _)
      · rw [read levels, x.tableNames_query, x.rest_window, Mark.tables_append]
        rfl
  | succ more =>
      have unbalanced : balances 0 us ≠ true := by simp [balances_eq_opened, found]
      have lost : aggregate = ⟨⟨[x.query none []]⟩, []⟩ := x.ofTokens_aggregate_open whole found
      have tables : aggregate.script.tableNames = [] := by
        rw [lost, x.tableNames_query]
        rfl
      refine ⟨by rw [lost], ?_, ⟨fun finds => ?_, fun holds => absurd holds.1 unbalanced⟩,
        fun _ balanced => absurd balanced unbalanced⟩
      · rw [lost, x.fieldNames_query]
        rfl
      · have tableNames := finds.tableNames
        rw [tables] at tableNames
        simp at tableNames

theorem ofTokens_ordering_query :
    let token (kind : TokenKind) (text : String) : Token := ⟨kind, text, .start⟩
    let x : OrderedCall :=
      { first := token (.keyword .select) "SELECT"
        function := token .identifier "[f]"
        opening := token (.punctuation .leftParen) "("
        argument := token .identifier "[a]"
        closing := token (.punctuation .rightParen) ")"
        within := token .identifier "WITHIN"
        group := token (.keyword .group) "GROUP"
        overWord := token (.keyword .over) "OVER"
        left := token (.punctuation .leftParen) "("
        order := token (.keyword .order) "ORDER"
        word := token (.keyword .by) "BY"
        right := token (.punctuation .rightParen) ")"
        middle := token (.keyword .from) "FROM"
        table := token .identifier "[T]"
        stop := token .endOfInput ""
        isSelect := rfl
        isFunction := by decide +kernel
        opens := rfl
        isArgument := by decide +kernel
        closes := rfl
        isWithin := by decide +kernel
        isGroup := rfl
        isOver := rfl
        isLeft := rfl
        isOrder := rfl
        isBy := rfl
        isRight := rfl
        isFrom := rfl
        isTable := by decide +kernel
        isStop := rfl }
    let column := (TokenStream.ofText "[b] DESC").tokens.dropLast
    let query := (TokenStream.ofText "(SELECT [c] FROM [U])").tokens.dropLast
    let us := column ++ token (.punctuation .comma) "," :: query
    ∃ items, OrderedBy (nestingLimit - 2) us items ∧ balances 0 us = true ∧
      (ofTokens ⟨x.aggregate us, []⟩).script.fieldNames = ["a"] ∧
      x.FindsOrdering items (ofTokens ⟨x.windowed us, []⟩) ∧
      (ofTokens ⟨x.windowed us, []⟩).script.fieldNames = ["a", "b", "c"] := by
  intro token x column query us
  let stop : Token := token .endOfInput ""
  let read (ts : List Token) :=
    orderItem (level (nestingLimit - 2)) ⟨.ofTokens (ts ++ [stop]), []⟩
  have known (ts : List Token) (member : ts ∈ [column, query]) :
      (∀ t ∈ ts, t.endsBatch = false) ∧ (read ts).1.isSome = true ∧
        (read ts).2.cursor.tokens = [stop] ∧ (read ts).2.reported = [] := by
    revert ts
    decide +kernel
  have alone (ts : List Token) (member : ts ∈ [column, query]) :
      ∃ item, OrdersAlone (nestingLimit - 2) ts item := by
    obtain ⟨oneBatch, found, ends, quiet⟩ := known ts member
    obtain ⟨item, alone, -⟩ := OrdersAlone.exists_of_run oneBatch rfl found ends quiet
    exact ⟨item, alone⟩
  have names : balances 0 us = true ∧ x.column.value = "a" ∧
      (ofTokens ⟨x.windowed us, []⟩).script.fieldNames = ["a", "b", "c"] := by decide +kernel
  obtain ⟨item, first⟩ := alone column (by simp)
  obtain ⟨item', second⟩ := alone query (by simp)
  obtain ⟨balanced, argument, fields⟩ := names
  have ordered : OrderedBy (nestingLimit - 2) us [item, item'] :=
    .item first rfl (.last second)
  obtain ⟨-, aggregate, -, windowed⟩ := ofTokens_ordering x ordered
  exact ⟨_, ordered, balanced, argument ▸ aggregate, (windowed rfl balanced).2, fields⟩

theorem ordering_lost_behind_within :
    let column := (TokenStream.ofText "[b]").tokens.dropLast
    let aggregate := "SELECT [f]([a]) WITHIN GROUP (ORDER BY [b]) FROM [T]"
    let windowed := "SELECT [f]([a]) OVER (ORDER BY [b]) FROM [T]"
    (∃ item, OrdersAlone (nestingLimit - 2) column item ∧
        Mark.fields item.outline.marks = ["b"] ∧
        fieldNames aggregate ≠ "a" :: Mark.fields item.outline.marks) ∧
      (ofText aggregate).errors = [] ∧ fieldNames aggregate = ["a"] ∧
      fieldNames windowed = ["a", "b"] := by
  intro column aggregate windowed
  have known : (ofText aggregate).errors = [] ∧ fieldNames aggregate = ["a"] ∧
      fieldNames windowed = ["a", "b"] := by decide +kernel
  obtain ⟨faultless, fields, fields'⟩ := known
  let stop : Token := .endOfInput .none
  let read := orderItem (level (nestingLimit - 2)) ⟨.ofTokens (column ++ [stop]), []⟩
  have item : (∀ t ∈ column, t.endsBatch = false) ∧ read.1.isSome = true ∧
      read.2.cursor.tokens = [stop] ∧ read.2.reported = [] ∧
      read.1.map (Mark.fields ·.outline.marks) = some ["b"] := by
    decide +kernel
  obtain ⟨oneBatch, found, ends, quiet, names⟩ := item
  obtain ⟨item, alone, same⟩ := OrdersAlone.exists_of_run oneBatch rfl found ends quiet
  have marks : Mark.fields item.outline.marks = ["b"] := by
    rw [show read.1 = some item from same, Option.map_some, Option.some.injEq] at names
    exact names
  refine ⟨⟨item, alone, marks, ?_⟩, faultless, fields, fields'⟩
  rw [marks, fields]
  decide

end ParseResult

end QueryNames
