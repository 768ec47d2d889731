import QueryNames.Proofs.Groups.Query
import QueryNames.Proofs.OneBatch
import QueryNames.Proofs.Semicolon.Script

/-!
Groups that do not match. Main statement: a text in which a group is closed that was not opened has
errors, and so has one in which a group is never closed, unless that group was passed over behind
some word, or there is another one in a data type.
-/

namespace QueryNames

namespace Grammar.Parser

/-- A script without a complaint is read to the end of input. -/
theorem script_ends {c : Cursor} {queries : List Query} {s : State} (ended : Ended c.tokens)
    (run : script ⟨c, []⟩ = (some queries, s)) (quiet : s.reported = []) :
    s.cursor.isAtEnd = true := by
  -- on the tokens that are left, of which a statement without a complaint takes at least one
  induction length : c.remaining using Nat.strongRecOn generalizing c queries with
  | ind n ih =>
      cases ends : c.isAtEnd with
      | true =>
          rw [script_end ends] at run
          cases run
          exact ends
      | false =>
          obtain ⟨a?, more, s₁, first, quiet₁, later⟩ := collect_quiet statement_advances run quiet
          have onward := statement_advances.onward ⟨c, []⟩
          rw [first] at onward
          obtain ⟨c₁, rfl⟩ : ∃ c₁, s₁ = ⟨c₁, []⟩ := ⟨s₁.cursor, by rw [← quiet₁]⟩
          have step := Cursor.tokens_advance ended.closed ends
          have view : c = ⟨c.current, c.advance.tokens⟩ := Cursor.eq_of_tokens step
          have goesOn : c.current.kind ≠ .endOfInput := by
            simpa [Cursor.isAtEnd, Token.isEnd] using ends
          rw [view] at first
          obtain ⟨query?, same, fewer⟩ := statement_onward goesOn first quiet₁
          obtain ⟨rfl, rfl⟩ : a? = query? ∧ more = true := by simpa using same
          rw [← view] at fewer
          rcases later with ⟨queries', -, -, rfl, run'⟩ | ⟨stops, -, -⟩
          · have ended₁ : Ended c₁.tokens := ended.of_suffix onward.tokens (by simp)
            exact ih c₁.remaining (length ▸ fewer) ended₁ run' rfl
          · exact absurd ⟨rfl, fewer⟩ stops

/-- What a script without a complaint says of the groups in its tokens. -/
theorem script_opened {c : Cursor} (ended : Ended c.tokens)
    (quiet : (script ⟨c, []⟩).2.reported = []) :
    ∃ left, opened 0 c.tokens = some left ∧
      (left = 0 ∨ LeftOpen c.tokens ∨ GroupInType c.tokens) := by
  obtain ⟨queries, s, run⟩ := Total.result (p := script) ⟨c, []⟩
  rw [run] at quiet
  have counts : Counts c.tokens [] 0 0 script := inferInstance
  rcases counts.runs.of_result ⟨.start ended, trivial⟩ run with
    (complained | ⟨leftOpen, left, open_⟩) | stands
  · exact absurd quiet complained
  · exact ⟨left, open_, .inr (.inl leftOpen)⟩
  · obtain ⟨left, open_, exact_⟩ := stands.opened_whole (script_ends ended run quiet)
    by_cases inType : GroupInType c.tokens
    · exact ⟨left, open_, .inr (.inr inType)⟩
    · exact ⟨left, open_, .inl (exact_ inType)⟩

end Grammar.Parser

namespace ParseResult

open Grammar

/-- What a text without errors says of its groups. -/
theorem opened_ofText {text : String}
    (oneBatch : ∀ t ∈ (TokenStream.ofText text).tokens, t.isSeparator = false)
    (faultless : (ofText text).errors = []) :
    let tokens := (TokenStream.ofText text).tokens
    ∃ left, opened 0 tokens = some left ∧ (left = 0 ∨ LeftOpen tokens ∨ GroupInType tokens) := by
  intro tokens
  obtain ⟨front, stop, split, ends, whole⟩ := TokenStream.oneBatch_ofText oneBatch
  have isStop : stop.kind = .endOfInput := Token.isEnd_iff.1 ends
  have inside (t : Token) (member : t ∈ front) : t.kind ≠ .endOfInput :=
    Token.kind_ne_of_endsBatch (whole t member)
  have same : TokenStream.ofText text = ⟨front ++ [stop], (TokenStream.ofText text).errors⟩ := by
    rw [← split]
  rw [ofText, same] at faultless
  obtain ⟨-, c, s, tokens_, quiet, run⟩ := ofTokens_quiet whole isStop faultless
  have ended : Ended c.tokens := tokens_ ▸ .concat inside isStop
  have found := Parser.script_opened ended (by rw [run]; exact quiet)
  rwa [tokens_, ← split] at found

/-- Groups that do not match are complained of, unless one is left open that was passed over, or
one opens in a data type. -/
theorem errors_ofText_unbalanced (text : String)
    (oneBatch : ∀ t ∈ (TokenStream.ofText text).tokens, t.isSeparator = false)
    (unbalanced : balances 0 (TokenStream.ofText text).tokens = false) :
    let tokens := (TokenStream.ofText text).tokens
    (ofText text).errors ≠ [] ∨
      ((∃ left, opened 0 tokens = some (left + 1)) ∧ (LeftOpen tokens ∨ GroupInType tokens)) := by
  intro tokens
  by_cases faultless : (ofText text).errors = []
  · obtain ⟨left, found, closed⟩ := opened_ofText oneBatch faultless
    cases left with
    | zero =>
        rw [balances_eq_opened, found] at unbalanced
        cases unbalanced
    | succ left => exact .inr ⟨⟨left, found⟩, closed.resolve_left nofun⟩
  · exact .inl faultless

/-- The last parenthesis closes nothing. -/
theorem errors_ofText_unbalanced_closing :
    let text := "SELECT a FROM t)"
    let tokens := (TokenStream.ofText text).tokens
    (∀ t ∈ tokens, t.isSeparator = false) ∧ balances 0 tokens = false ∧ opened 0 tokens = none ∧
      (ofText text).errors ≠ [] := by
  intro text tokens
  have known : (∀ t ∈ tokens, t.isSeparator = false) ∧ balances 0 tokens = false ∧
      opened 0 tokens = none := by
    decide +kernel
  obtain ⟨oneBatch, unbalanced, none_⟩ := known
  refine ⟨oneBatch, unbalanced, none_, ?_⟩
  apply (errors_ofText_unbalanced text oneBatch unbalanced).resolve_right
  rintro ⟨⟨left, found⟩, -⟩
  rw [none_] at found
  cases found

/-- The hints are passed over to the end of the text, where their parenthesis is not missed. -/
theorem faultless_unclosed_hints :
    let text := "SELECT a FROM t WITH (NOLOCK"
    (∀ t ∈ (TokenStream.ofText text).tokens, t.isSeparator = false) ∧
      balances 0 (TokenStream.ofText text).tokens = false ∧ (ofText text).errors = [] := by
  decide +kernel

-- an inner group of a data type is closed together with the outer one
example :
    let text := "SELECT CAST(a AS decimal((1)) FROM t"
    balances 0 (TokenStream.ofText text).tokens = false ∧ (ofText text).errors = [] := by
  decide +kernel

end ParseResult

end QueryNames
