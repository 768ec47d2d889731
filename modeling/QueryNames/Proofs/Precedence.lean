import QueryNames.Proofs.Written.SourceReading

/-!
Precedence. Main statement: a condition that is written with each operand at the strength that its
operator wants is read as the tree that it is written for.
-/

namespace QueryNames

open Grammar Grammar.Parser

/-- A condition up to the end of the input is read as its tree, and the query around it is all that
there is. The query and its condition take two levels of nesting. -/
theorem ParseResult.ofTokens_condition {first one middle table word stop : Token} {ts : List Token}
    {e : Expression} (isSelect : first.kind = .keyword .select)
    (isNumber : one.kind = .numberLiteral) (isFrom : middle.kind = .keyword .from)
    (delimited : table.isDelimited = true) (isWhere : word.kind = .keyword .where)
    (written : Written (nestingLimit - 2) (.at .disjunction) ts e)
    (isStop : stop.kind = .endOfInput) :
    ofTokens ⟨first :: one :: middle :: table :: word :: ts ++ [stop], []⟩ =
      ⟨⟨[{ location := first.location
           items := [.expression (.literal (.number one.text)) none]
           sources := [.named ⟨⟨.ofToken table, []⟩, none⟩]
           condition := some e }]⟩, []⟩ := by
  have begins : Next ([one] ++ middle :: ([table] ++ word :: ts)) EndsQuery BeginsItems := by
    show BeginsItems one
    simp [BeginsItems, endsClause, isNumber]
  have number : Written (nestingLimit - 2) (.at .disjunction) [one] (.literal (.number one.text)) :=
    Written.loosen (.leaf (by simp [leaf?, isNumber])) .disjunction (by decide)
  have item : Yields (selectItem (level (nestingLimit - 1))) [one]
      (.expression (.literal (.number one.text)) none) (endsItem ·) := by
    apply selectItem_expression
    · show one.kind ≠ _
      simp [isNumber]
    · intro s _
      rw [State.tokens_prepend]
      exact startsWithQualifiedStar_of_kind (by simp [isNumber])
    · exact fun s ends => kind_ne_of_endsItem ends rfl
    · exact number.expression
  have source : WrittenSource (nestingLimit - 1) .list [table]
      [.named ⟨⟨.ofToken table, []⟩, none⟩] _ :=
    .last (.single (.named (.parts delimited .nil) .absent))
  have condition : ∀ t ∈ word :: ts, t.endsBatch = false :=
    List.forall_mem_cons.2 ⟨endsBatch_of_keyword isWhere, written.whole⟩
  have inside : ∀ t ∈ [one] ++ ([table] ++ word :: ts), t.endsBatch = false :=
    List.forall_mem_append.2 ⟨number.whole, List.forall_mem_append.2 ⟨source.whole, condition⟩⟩
  exact ofTokens_select isSelect begins (commaList_one item) isFrom source.yields
    (.present isWhere written.expression) inside isStop

/-- Operators of all strengths, in a text. -/
theorem ParseResult.ofText_mixed_condition :
    let place (offset : Nat) : Location := ⟨offset, 1, offset + 1⟩
    let name (value : String) (offset : Nat) : Identifier := ⟨value, some .bracket, place offset⟩
    let number (text : String) : Expression := .literal (.number text)
    let column : Expression :=
      .column ⟨some ⟨name "a" 28, [name "b" 32]⟩, .regular, place 28⟩
    ofText "SELECT 1 FROM [T] WHERE NOT [a].[b] + 2 * @x IN (3) OR 'c' IS NULL" =
      ⟨⟨[{ location := place 0
           items := [.expression (number "1") none]
           sources := [.named ⟨⟨name "T" 14, []⟩, none⟩]
           condition := some (.binary .or
             (.unary .not (.inList
               (.binary .plus column (.binary .multiply (number "2") (.variable "@x")))
               [number "3"] false))
             (.isNull (.literal (.string "c")) false)) }]⟩, []⟩ := by
  intro place name number column
  let token (kind : TokenKind) (text : String) (offset : Nat) : Token := ⟨kind, text, place offset⟩
  let a := token .identifier "[a]" 28
  let b := token .identifier "[b]" 32
  let table := token .identifier "[T]" 14
  let sum := [a, token (.punctuation .period) "." 31, b, token (.operator .plus) "+" 36,
    token .numberLiteral "2" 38, token .star "*" 40, token .variable "@x" 42]
  let left := token (.keyword .not) "NOT" 24 :: (sum ++ token (.keyword .in) "IN" 45 ::
    token (.punctuation .leftParen) "(" 48 ::
    ([token .numberLiteral "3" 49] ++ [token (.punctuation .rightParen) ")" 50]))
  let right := [token .stringLiteral "'c'" 55, token (.keyword .is) "IS" 59,
    token (.keyword .null) "NULL" 62]
  have stream : (TokenStream.ofText
        "SELECT 1 FROM [T] WHERE NOT [a].[b] + 2 * @x IN (3) OR 'c' IS NULL").tokens =
      token (.keyword .select) "SELECT" 0 :: token .numberLiteral "1" 7 ::
        token (.keyword .from) "FROM" 9 :: table :: token (.keyword .where) "WHERE" 18 ::
        (left ++ token (.keyword .or) "OR" 52 :: right) ++ [token .endOfInput "" 66] ∧
      (TokenStream.ofText
        "SELECT 1 FROM [T] WHERE NOT [a].[b] + 2 * @x IN (3) OR 'c' IS NULL").errors = [] := by
    decide +kernel
  have delimited : a.isDelimited = true ∧ b.isDelimited = true ∧ table.isDelimited = true := by
    decide +kernel
  have names : Identifier.ofToken a = name "a" 28 ∧ Identifier.ofToken b = name "b" 32 ∧
      Identifier.ofToken table = name "T" 14 := by decide +kernel
  have product : Written 37 (.at .multiplicative) _
      (.binary .multiply (number "2") (.variable "@x")) :=
    .chain (s := .multiplicative) (t := token .star "*" 40) rfl
      (Written.loosen (.leaf (t := token .numberLiteral "2" 38) rfl) .multiplicative (by decide))
      (Written.loosen (.leaf (t := token .variable "@x" 42) rfl) .signed (by decide))
  have summed : Written 37 (.at .additive) sum
      (.binary .plus (.column ⟨some ⟨.ofToken a, [.ofToken b]⟩, .regular, place 28⟩)
        (.binary .multiply (number "2") (.variable "@x"))) :=
    .chain (s := .additive) (t := token (.operator .plus) "+" 36) rfl
      (Written.loosen (.column (.parts delimited.1 (.part rfl delimited.2.1 .nil))) .additive
        (by decide)) product
  have negated : Written 38 (.at .disjunction) left _ :=
    Written.loosen (.not rfl (.tighter (s := .negation) (.inList summed .absent rfl rfl
      (.last (.argument (Written.loosen (.leaf rfl) .disjunction (by decide)))) rfl)))
      .disjunction (by decide)
  have string : leaf? (token .stringLiteral "'c'" 55) = some (.literal (.string "c")) := by
    have value : stringValue "'c'" = "c" := by decide +kernel
    rw [← value]
    rfl
  have tested : Written 38 (.at .conjunction) right (.isNull (.literal (.string "c")) false) :=
    Written.loosen (.isNull (Written.loosen (.leaf string) .additive (by decide)) rfl .absent rfl)
      .conjunction (by decide)
  have read := @ofTokens_condition (token (.keyword .select) "SELECT" 0)
    (token .numberLiteral "1" 7) (token (.keyword .from) "FROM" 9) table
    (token (.keyword .where) "WHERE" 18) (token .endOfInput "" 66) _ _ rfl rfl rfl delimited.2.2 rfl
    (.chain (s := .disjunction) (t := token (.keyword .or) "OR" 52) rfl negated tested) rfl
  have same := congr (congrArg TokenStream.mk stream.1) stream.2
  rw [names.1, names.2.1, names.2.2, ← same] at read
  exact read

end QueryNames
