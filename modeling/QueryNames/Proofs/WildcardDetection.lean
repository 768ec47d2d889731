import QueryNames.Proofs.Starless.Query
import QueryNames.Proofs.Text.Kind
import QueryNames.Proofs.Text.SeparatorLine
import QueryNames.Resolution

/-!
The two ways to tell a wildcard. Main statement: where a select list holds a star, the text holds
one that is no part of a comment, a string or a quoted name, so that a source is never asked for the
sake of the tree alone.
-/

namespace QueryNames

namespace Piece

/-- Whatever a text begins with, a star token is the sign itself. -/
def Cut.IsSign (cut : Cut) : Prop := cut.kind = .token .star → cut.text = ['*']

theorem sign_isSign (c : Char) (r : List Char) : (sign c r).IsSign := by
  unfold sign
  split <;> first | exact fun _ => rfl | nofun

theorem cut_isSign (lineIsBlank : Bool) (c : Char) (r : List Char) :
    (cut lineIsBlank c r).IsSign := by
  apply cut_says (Q := (· = ['*'])) (by decide) (by decide)
  · exact fun q r _ => delimited_says (by decide) q.opening q.closing r
  · exact fun marker _ r => string_says (by decide) (marker ++ ['\'']) r
  · exact fun _ => word_says (by decide) (by simp) (by decide) lineIsBlank _ _
  · exact sign_isSign c r

theorem text_of_star {place : Location} {lineIsBlank : Bool} {cs : List Char} {piece : Piece}
    (member : piece ∈ chain place lineIsBlank cs) (star : piece.kind = .token .star) :
    piece.text = ['*'] :=
  holds_of_mem_chain (P := fun kind text => kind = .token .star → text = ['*']) cut_isSign member
    star

end Piece

/-- A star that is a piece of the text by itself, outside of all comments, strings and names. -/
def HasOwnStar (text : String) : Prop :=
  ∃ before behind : List Char, text.toList = before ++ '*' :: behind ∧
    ∃ front rest : List Piece, ∃ place : Location,
      Piece.chain .start true text.toList = front ++ ⟨.token .star, ['*'], place⟩ :: rest ∧
        front.flatMap (·.text) = before

theorem hasOwnStar_of_token {text : String} {t : Token}
    (member : t ∈ (TokenStream.ofText text).tokens) (star : t.kind = .star) : HasOwnStar text := by
  have inPieces : t ∈ (Piece.chain .start true text.toList).filterMap Piece.token? := by
    rcases List.mem_append.1 member with inPieces | last
    · exact inPieces
    · rw [List.mem_singleton.1 last] at star
      cases star
  obtain ⟨piece, among, token⟩ := List.mem_filterMap.1 inPieces
  have known : t.kind ≠ .unknown := by
    rw [star]
    nofun
  have kind : piece.kind = .token .star := star ▸ Piece.kind_of_token? token known
  have sign := Piece.text_of_star among kind
  obtain ⟨_, _, place⟩ := piece
  obtain rfl := kind
  obtain rfl := sign
  obtain ⟨front, rest, split⟩ := List.append_of_mem among
  have whole := Piece.flatMap_text_chain .start true text.toList
  rw [split, List.flatMap_append, List.flatMap_cons] at whole
  exact ⟨_, _, whole.symm, front, rest, place, split, rfl⟩

namespace ParseResult

open Grammar

theorem selectsWildcard_ofBatch {stream : TokenStream}
    (noStar : ∀ t ∈ stream.tokens, t.kind ≠ .star) :
    (ofBatch stream).script.selectsWildcard = false := by
  let s : State := ⟨.ofTokens stream.tokens, stream.errors.reverse⟩
  have bare : s.NoStar := by
    intro t member star
    have inside : t ∈ s.cursor.tokens.filter (!·.isEnd) :=
      List.mem_filter.2 ⟨member, by simp [Token.isEnd, star]⟩
    rw [Cursor.filter_tokens_ofTokens] at inside
    exact noStar t (List.mem_filter.1 inside).1 star
  rw [Script.selectsWildcard_eq_marks, Script.marks, Mark.stars_flatMap]
  rcases run : Parser.script s with ⟨_ | queries, s'⟩
  · simp [ofBatch, s, run]
  · have found : starred queries = false := Parser.Starless.starless bare run
    have script : (ofBatch stream).script.queries = queries := by simp [ofBatch, s, run]
    rw [script]
    exact found

theorem selectsWildcard_ofTokens {stream : TokenStream}
    (noStar : ∀ t ∈ stream.tokens, t.kind ≠ .star) :
    (ofTokens stream).script.selectsWildcard = false := by
  have batches : ∀ batch ∈ Batch.ofTokens stream.tokens, ∀ t ∈ batch.tokens, t.kind ≠ .star := by
    intro batch isBatch t member star
    have content : t ∈ Batch.content (Batch.ofTokens stream.tokens) :=
      List.mem_flatMap.2 ⟨batch, isBatch, List.mem_filter.2 ⟨member, by simp [Token.isEnd, star]⟩⟩
    rw [Batch.content_ofTokens] at content
    exact noStar t (List.mem_filter.1 content).1 star
  rw [Script.selectsWildcard_eq_marks, Script.marks, Mark.stars_flatMap, List.any_eq_false]
  intro query member
  obtain ⟨_, among, inBatch⟩ := List.mem_flatMap.1 member
  obtain ⟨batch, isBatch, rfl⟩ := List.mem_map.1 among
  have alone : (ofBatch ⟨batch.tokens, []⟩).script.selectsWildcard = false :=
    selectsWildcard_ofBatch (batches batch isBatch)
  rw [Script.selectsWildcard_eq_marks, Script.marks, Mark.stars_flatMap, List.any_eq_false] at alone
  exact alone query inBatch

theorem hasOwnStar_of_selectsWildcard {text : String}
    (selects : (ofText text).script.selectsWildcard = true) : HasOwnStar text := by
  cases stars : (TokenStream.ofText text).tokens.any (·.kind == .star) with
  | true =>
      obtain ⟨t, member, star⟩ := List.any_eq_true.1 stars
      exact hasOwnStar_of_token member (by simpa using star)
  | false =>
      have noStar : ∀ t ∈ (TokenStream.ofText text).tokens, t.kind ≠ .star := by
        simpa using stars
      have bare := selectsWildcard_ofTokens noStar
      rw [ofText, bare] at selects
      cases selects

end ParseResult

/-- A question to a source of columns. -/
inductive Question where
  | columns (table : String)
  | columnsOfAll (tables : List String)

/-- Answers that may fail, and the questions asked, in order. -/
abbrev Questioned := ExceptT Failure (StateM (List Question))

/-- Notes each question, and answers it in any way, also by what it was asked before. To be asked
for all of no tables is a question too. -/
def SchemaProvider.questioned (answer : List Question → Question → Except Failure (List String)) :
    SchemaProvider Questioned where
  columns table := do
    let asked ← get
    modify (· ++ [.columns table])
    liftExcept (answer asked (.columns table))
  columnsOfAll tables := do
    let asked ← get
    modify (· ++ [.columnsOfAll tables])
    liftExcept (answer asked (.columnsOfAll tables))

theorem SchemaProvider.questioned_columnsOfAll
    (answer : List Question → Question → Except Failure (List String)) (tables : List String)
    (asked : List Question) :
    ((questioned answer).columnsOfAll tables).run.run asked =
      (answer asked (.columnsOfAll tables), asked ++ [.columnsOfAll tables]) := by
  change (liftExcept (answer asked (.columnsOfAll tables)) : Questioned (List String)).run.run
    (asked ++ [.columnsOfAll tables]) = _
  cases answer asked (.columnsOfAll tables) <;> rfl

theorem HasOwnStar.fires {text : String} (own : HasOwnStar text) (script : Script) :
    WildcardDetection.fires .textual text script = true := by
  obtain ⟨before, behind, whole, -⟩ := own
  simp [WildcardDetection.fires, whole]

/-- The tree has a star in a select list only where the text has one of its own. So a source that is
not questioned for the sake of the text is not for the sake of the tree, and the names are the same,
whatever it would have answered. -/
theorem structural_within_textual (text : String) :
    ((ParseResult.ofText text).script.selectsWildcard = true → HasOwnStar text) ∧
      ∀ (answer : List Question → Question → Except Failure (List String))
        (asked : List Question),
        let ask := fun detection =>
          (resolveFieldNames (.questioned answer) detection text).run.run asked
        (ask .textual).2 = asked → ask .structural = ask .textual := by
  constructor
  · exact ParseResult.hasOwnStar_of_selectsWildcard
  · intro answer asked ask silent
    have quiet :
        WildcardDetection.fires .textual text (ParseResult.ofText text).script = false := by
      cases fires : WildcardDetection.fires .textual text (ParseResult.ofText text).script with
      | false => rfl
      | true =>
          have questions : (ask .textual).2 =
              asked ++ [.columnsOfAll (ParseResult.ofText text).script.tableNames] := by
            simp only [ask, resolveFieldNames, if_pos fires]
            rw [SchemaProvider.questioned_columnsOfAll]
          rw [questions] at silent
          simp at silent
    have bare : WildcardDetection.fires .structural text (ParseResult.ofText text).script =
        false := by
      cases fires : WildcardDetection.fires .structural text (ParseResult.ofText text).script with
      | false => rfl
      | true =>
          have own := ParseResult.hasOwnStar_of_selectsWildcard fires
          rw [own.fires] at quiet
          cases quiet
    simp only [ask, resolveFieldNames, quiet, bare]

/-- A query with a star of its own, and one for which nobody is asked. -/
theorem structural_within_textual_asked :
    let text := "SELECT T.* FROM T"
    let answer : List Question → Question → Except Failure (List String) := fun _ _ => .ok []
    HasOwnStar text ∧
      (resolveFieldNames (.questioned answer) .structural "SELECT a FROM T").run.run [] =
        (.ok ["a"], []) := by
  intro text answer
  have selects : (ParseResult.ofText text).script.selectsWildcard = true := by decide +kernel
  have silent : ((resolveFieldNames (.questioned answer) .textual "SELECT a FROM T").run.run []) =
      (.ok ["a"], []) := by
    have names : (ParseResult.ofText "SELECT a FROM T").script.fieldNames = ["a"] := by
      decide +kernel
    rw [resolveFieldNames, if_neg (by decide), names]
    rfl
  have same := (structural_within_textual "SELECT a FROM T").2 answer [] (congrArg Prod.snd silent)
  exact ⟨(structural_within_textual text).1 selects, same.trans silent⟩

end QueryNames
