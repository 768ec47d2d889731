import QueryNames.Proofs.Height.Query
import QueryNames.Proofs.Text.QuotedName
import QueryNames.Proofs.Written.SourceReading

/-!
How high the trees of texts are. Main statements: the limit on nesting bounds the height of a tree
up to the links of its chains, and nothing bounds the length of these.
-/

namespace QueryNames

open Grammar Grammar.Parser

namespace ParseResult

variable {P : Query → Prop}

theorem found_ofBatch
    (finds : Finds (fun _ => True) (fun queries => ∀ q ∈ queries, P q) Parser.script)
    (stream : TokenStream) : ∀ q ∈ (ofBatch stream).script.queries, P q := by
  rcases run : Parser.script ⟨.ofTokens stream.tokens, stream.errors.reverse⟩ with
    ⟨_ | queries, s⟩
  · simp [ofBatch, run]
  · have found := finds.found (fun t _ => ⟨fun _ => trivial, fun _ => trivial⟩) run
    simpa [ofBatch, run] using found

/-- What holds of whatever the grammar finds holds of all queries of a text. -/
theorem found_ofText
    (finds : Finds (fun _ => True) (fun queries => ∀ q ∈ queries, P q) Parser.script)
    (text : String) : ∀ q ∈ (ofText text).script.queries, P q := by
  intro q member
  obtain ⟨_, among, inBatch⟩ := List.mem_flatMap.1 member
  obtain ⟨batch, -, rfl⟩ := List.mem_map.1 among
  exact found_ofBatch finds ⟨batch.tokens, []⟩ q inBatch

/-- Each level of nesting adds two at most: an expression in which others stand, and a condition on
it. All else are the links of chains. -/
theorem height_ofText (text : String) :
    ∀ query ∈ (ofText text).script.queries,
      query.outline.height ≤ 2 * nestingLimit + 1 + query.outline.links :=
  fun query member => (found_ofText script_within text query member).outline

/-- A sum in an item, beside a comparison. -/
theorem height_ofText_sum :
    let queries := (ofText "SELECT 1 + 2 FROM [T] WHERE [a] = 3").script.queries
    queries.length = 1 ∧ ∀ query ∈ queries, query.outline.height = 3 ∧ query.outline.links = 1 ∧
      query.outline.height ≤ 2 * nestingLimit + 1 + query.outline.links := by
  intro queries
  have known : queries.length = 1 ∧
      ∀ query ∈ queries, query.outline.height = 3 ∧ query.outline.links = 1 := by
    decide +kernel
  refine ⟨known.1, fun query member => ?_⟩
  obtain ⟨height, links⟩ := known.2 query member
  exact ⟨height, links, height_ofText _ query member⟩

end ParseResult

/-! A sum is as high as it is long. -/

namespace Piece

/-- A sum of `n + 1` numbers. -/
def sum : Nat → List Char
  | 0 => ['1']
  | n + 1 => sum n ++ ['+', '1']

/-- Nothing stands first, or another summand. -/
def EndsSum (cs : List Char) : Prop := cs = [] ∨ ∃ r, cs = '+' :: r

theorem lexes_one : Lexes ['1'] EndsSum fun ts => ∃ t, ts = [t] ∧ t.kind = .numberLiteral := by
  have one : Lexes ['1'] EndsSum fun ts => ∃ place, ts = [⟨.numberLiteral, "1", place⟩] := by
    apply Lexes.token
    rintro lineIsBlank _ (rfl | ⟨r, rfl⟩) <;> rfl
  apply one.imp
  rintro ts ⟨place, rfl⟩
  exact ⟨_, rfl, rfl⟩

theorem lexes_plus : Lexes ['+'] (fun _ => True) fun ts =>
    ∃ t, ts = [t] ∧ t.kind = .operator .plus := by
  have plus : Lexes ['+'] (fun _ => True) fun ts => ∃ place, ts = [⟨.operator .plus, "+", place⟩] :=
    Lexes.token fun _ _ _ => rfl
  apply plus.imp
  rintro ts ⟨place, rfl⟩
  exact ⟨_, rfl, rfl⟩

theorem lexes_star : Lexes ['*'] (fun _ => True) fun ts => ∃ t, ts = [t] ∧ t.kind = .star := by
  have star : Lexes ['*'] (fun _ => True) fun ts => ∃ place, ts = [⟨.star, "*", place⟩] :=
    Lexes.token fun _ _ _ => rfl
  apply star.imp
  rintro ts ⟨place, rfl⟩
  exact ⟨_, rfl, rfl⟩

theorem lexes_sum (n : Nat) : Lexes (sum n) EndsSum fun ts =>
    ∃ e, Written (nestingLimit - 2) (.at .additive) ts e ∧ n < e.outline.height := by
  have number {t : Token} (is : t.kind = .numberLiteral) :
      Written (nestingLimit - 2) (.at .primary) [t] (.literal (.number t.text)) :=
    .leaf (by simp [leaf?, is])
  induction n with
  | zero =>
      apply lexes_one.imp
      rintro _ ⟨t, rfl, is⟩
      exact ⟨_, (number is).loosen .additive (by decide), Nat.one_pos⟩
  | succ n ih =>
      have summand := lexes_plus.append lexes_one fun _ _ => trivial
      apply (ih.append summand fun _ _ => .inr ⟨_, rfl⟩).imp
      rintro _ ⟨ls, _, rfl, ⟨e, written, high⟩, _, _, rfl, ⟨plus, rfl, isPlus⟩, t, rfl, is⟩
      refine ⟨_, .chain (by rw [isPlus]; rfl) written ((number is).loosen _ (by decide)), ?_⟩
      apply Nat.lt_of_lt_of_le (Nat.succ_lt_succ high)
      exact Outline.height_add_calls_le (.expression (.binary .plus e _)) List.mem_cons_self

theorem beginsInk_sum (n : Nat) (rest : List Char) : BeginsInk (sum n ++ rest) := by
  induction n generalizing rest with
  | zero => exact ⟨'1', rest, rfl, rfl⟩
  | succ n ih =>
      rw [sum, List.append_assoc]
      exact ih _

/-- A query in which a sum stands for the condition. -/
def sumQuery (n : Nat) : String := String.ofList ("SELECT * FROM [T] WHERE ".toList ++ sum n)

theorem lexes_sumQuery (n : Nat) : Lexes (sumQuery n).toList EndsSum fun ts =>
    ∃ first star middle table word us e, ts = first :: star :: middle :: table :: word :: us ∧
      first.kind = .keyword .select ∧ star.kind = .star ∧ middle.kind = .keyword .from ∧
      table.isDelimited = true ∧ word.kind = .keyword .where ∧
      Written (nestingLimit - 2) (.at .additive) us e ∧ n < e.outline.height := by
  have chars : (sumQuery n).toList = ['S', 'E', 'L', 'E', 'C', 'T'] ++ ([' '] ++ (['*'] ++
      ([' '] ++ (['F', 'R', 'O', 'M'] ++ ([' '] ++ (['[', 'T', ']'] ++
        ([' '] ++ (['W', 'H', 'E', 'R', 'E'] ++ ([' '] ++ sum n))))))))) :=
    String.toList_ofList.trans (by simp)
  have select := @lexes_keyword .select 'S' ['E', 'L', 'E', 'C', 'T'] (fun _ _ => rfl)
    (by decide +kernel) (by decide +kernel) rfl
  have «from» := @lexes_keyword .from 'F' ['R', 'O', 'M'] (fun _ _ => rfl)
    (by decide +kernel) (by decide +kernel) rfl
  have «where» := @lexes_keyword .where 'W' ['H', 'E', 'R', 'E'] (fun _ _ => rfl)
    (by decide +kernel) (by decide +kernel) rfl
  have table : Lexes ['[', 'T', ']'] EndsQuoted fun ts => ∃ t, ts = [t] ∧ t.isDelimited = true ∧
      (Identifier.ofToken t).value = "T" := by
    exact lexes_quotedPart ⟨.bracket, "T", nofun, by decide +kernel⟩
  have blank {text : List Char} {follow : List Char → Prop} {P : List Token → Prop}
      (lexes : Lexes text follow P) (ink : ∀ rest, BeginsInk (text ++ rest)) :
      Lexes ([' '] ++ text) follow P := by
    apply (lexes_blank.append lexes fun rest _ => ink rest).imp
    rintro _ ⟨_, _, rfl, rfl, holds⟩
    exact holds
  have condition := «where».append (blank (lexes_sum n) (beginsInk_sum n)) fun _ _ =>
    endsWord_blank _
  have source := table.append (blank condition fun _ => ⟨_, _, rfl, rfl⟩) fun _ _ =>
    endsQuoted_blank _
  have sources := «from».append (blank source fun _ => ⟨_, _, rfl, rfl⟩) fun _ _ => endsWord_blank _
  have items := lexes_star.append (blank sources fun _ => ⟨_, _, rfl, rfl⟩) fun _ _ => trivial
  have all := select.append (blank items fun _ => ⟨_, _, rfl, rfl⟩) fun _ _ => endsWord_blank _
  rw [chars]
  apply all.imp
  rintro _ ⟨_, _, rfl, ⟨first, rfl, isSelect⟩, _, _, rfl, ⟨star, rfl, isStar⟩, _, _, rfl,
    ⟨middle, rfl, isFrom⟩, _, _, rfl, ⟨table, rfl, delimited, -⟩, _, us, rfl, ⟨word, rfl, isWhere⟩,
    e, written, high⟩
  exact ⟨first, star, middle, table, word, us, e, rfl, isSelect, isStar, isFrom, delimited, isWhere,
    written, high⟩

end Piece

/-- The sum is read whole, and the query is all that there is. -/
theorem ParseResult.queries_ofText_sumQuery (n : Nat) :
    ∃ query ∈ (ofText (Piece.sumQuery n)).script.queries, n < query.outline.height := by
  obtain ⟨_, stop, stream, isStop, first, star, middle, table, word, us, e, rfl, isSelect, isStar,
    isFrom, delimited, isWhere, written, high⟩ := (Piece.lexes_sumQuery n).ofText (.inl rfl)
  have begins : Next ([star] ++ middle :: ([table] ++ word :: us)) EndsQuery BeginsItems := by
    show BeginsItems star
    simp [BeginsItems, endsClause, isStar]
  have source : WrittenSource (nestingLimit - 1) .list [table]
      [.named ⟨⟨.ofToken table, []⟩, none⟩] _ :=
    .last (.single (.named (.parts delimited .nil) .absent))
  have inside : ∀ t ∈ [star] ++ ([table] ++ word :: us), t.endsBatch = false := by
    simp only [List.forall_mem_append, List.forall_mem_cons]
    exact ⟨⟨endsBatch_of_kind isStar (by decide), nofun⟩,
      ⟨endsBatch_of_kind (Token.kind_of_isDelimited delimited) (by decide), nofun⟩,
      endsBatch_of_keyword isWhere, written.whole⟩
  have condition := (written.loosen .disjunction (by decide)).expression
  have read := ofTokens_select isSelect begins (commaList_one (selectItem_star isStar)) isFrom
    source.yields (.present isWhere condition) inside isStop
  have queries : (ofText (Piece.sumQuery n)).script.queries = _ :=
    congrArg (·.script.queries) ((congrArg ofTokens stream).trans read)
  rw [queries]
  exact ⟨_, List.mem_singleton_self _, Nat.lt_trans high (Query.height_condition rfl)⟩

/-- No bound holds for all texts: a chain is not cut off, however long it is. -/
theorem ParseResult.height_ofText_unbounded :
    ¬ ∃ bound, ∀ text, ∀ query ∈ (ofText text).script.queries, query.outline.height < bound := by
  rintro ⟨bound, bounds⟩
  obtain ⟨query, member, high⟩ := queries_ofText_sumQuery bound
  exact Nat.lt_asymm high (bounds _ query member)

end QueryNames
