import QueryNames.Proofs.Blame.Recovery
import QueryNames.Proofs.DiagnosticOrder
import QueryNames.Proofs.OneBatch

/-!
No failure is silent. Main statement: what cannot be read is complained of, at the token where it
was to begin or behind it, and where nothing is complained of, no token was passed over to recover
from a mistake.
-/

namespace QueryNames

namespace Grammar

/-- The end of input that may be put behind the last token stands at its end. -/
theorem Cursor.rising_ofTokens {tokens : List Token}
    (rising : tokens.Pairwise fun t u => t.location.offset < u.location.offset) :
    (ofTokens tokens).tokens.Pairwise fun t u => t.location.offset ≤ u.location.offset := by
  have weakly := rising.imp Nat.le_of_lt
  rw [tokens_ofTokens, closed]
  split
  · exact List.pairwise_singleton _ _
  · rename_i last found
    split
    · exact weakly
    · obtain ⟨front, rfl⟩ := List.getLast?_eq_some_iff.1 found
      refine List.pairwise_append.2 ⟨weakly, List.pairwise_singleton _ _, ?_⟩
      intro t member u closing
      obtain rfl := List.mem_singleton.1 closing
      have behind : t.location.offset ≤ last.location.offset := by
        rcases List.mem_append.1 member with earlier | is
        · exact (List.pairwise_append.1 weakly).2.2 t earlier last (List.mem_singleton_self _)
        · exact Nat.le_of_eq (by rw [List.mem_singleton.1 is])
      exact Nat.le_trans behind (Nat.le_add_right _ _)

/-- What is complained of among the tokens ahead stands at the first of them or behind it. -/
theorem State.Blames.at_or_behind {tokens : List Token} {s s' : State}
    (rising : tokens.Pairwise fun t u => t.location.offset < u.location.offset)
    (reached : s.cursor.tokens <:+ (Cursor.ofTokens tokens).tokens)
    (blames : s'.Blames s.cursor.tokens) :
    ∃ d ∈ s'.reported, d.isGrammatical = true ∧
      s.cursor.current.location.offset ≤ d.location.offset := by
  obtain ⟨d, member, grammatical, t, ahead, place⟩ := blames
  have ordered := (Cursor.rising_ofTokens rising).sublist reached.sublist
  refine ⟨d, member, grammatical, ?_⟩
  rw [place]
  rcases List.mem_cons.1 ahead with rfl | later
  · exact Nat.le_refl _
  · exact (List.pairwise_cons.1 ordered).1 t later

end Grammar

namespace ParseResult

open Grammar Grammar.Parser

/-- A recovery that takes tokens is found out by a complaint. -/
theorem exists_error_of_recovers {stream : TokenStream} {β : Type} {q : Parser β} {t : State}
    (recovers : Recovers q t)
    (runs : Runs q t Parser.script ⟨.ofTokens stream.tokens, stream.errors.reverse⟩) :
    ∃ d ∈ (ofBatch stream).errors, d.isGrammatical = true := by
  obtain ⟨d, member, grammatical, -⟩ := recovers.blames.onward runs.onward
  exact ⟨d, by simpa [ofBatch] using member, grammatical⟩

/-- From any place that a script may come to, what gives up has been complained of there or further
on, and a script without a complaint never passes over a token to recover. -/
theorem failures_reported {tokens : List Token}
    (rising : tokens.Pairwise fun t u => t.location.offset < u.location.offset) :
    (∀ {α : Type} {p : Parser α} {s s' : State}, Production p →
      s.cursor.tokens <:+ (Cursor.ofTokens tokens).tokens → p s = (none, s') →
      ∃ d ∈ s'.reported, d.isGrammatical = true ∧
        s.cursor.current.location.offset ≤ d.location.offset) ∧
    ∀ faults : List Diagnostic,
      (∀ d ∈ (ofBatch ⟨tokens, faults⟩).errors, d.isGrammatical = false) →
      ∀ {β : Type} {q : Parser β} {t : State}, Recovers q t →
        ¬ Runs q t Parser.script ⟨.ofTokens tokens, faults.reverse⟩ := by
  constructor
  · intro α p s s' production reached run
    exact (production.answers.blames run).at_or_behind rising reached
  · intro faults quiet β q t recovers runs
    obtain ⟨d, member, grammatical⟩ :=
      @exists_error_of_recovers ⟨tokens, faults⟩ _ _ _ recovers runs
    rw [quiet d member] at grammatical
    cases grammatical

/-- No expression begins with `SELECT`, and the text is read without a recovery. -/
theorem failures_reported_select :
    let stream := TokenStream.ofText "SELECT a FROM t"
    let start : State := ⟨.ofTokens stream.tokens, []⟩
    (stream.tokens.Pairwise fun t u => t.location.offset < u.location.offset) ∧
      (primary (level 0) start).1 = none ∧
      (∃ d ∈ (primary (level 0) start).2.reported, d.isGrammatical = true ∧
        start.cursor.current.location.offset ≤ d.location.offset) ∧
      (∀ d ∈ (ofBatch ⟨stream.tokens, []⟩).errors, d.isGrammatical = false) ∧
      ∀ {β : Type} {q : Parser β} {t : State}, Recovers q t → ¬ Runs q t Parser.script start := by
  intro stream start
  have rising := TokenStream.rising_ofText "SELECT a FROM t"
  have none_ : (primary (level 0) start).1 = none := by decide +kernel
  have quiet : ∀ d ∈ (ofBatch ⟨stream.tokens, []⟩).errors, d.isGrammatical = false := by
    decide +kernel
  obtain ⟨reported, clean⟩ := failures_reported rising
  exact ⟨rising, none_, reported (.primary 0) List.suffix_rfl (Prod.ext none_ rfl), quiet,
    clean [] quiet⟩

-- a recovery takes the name behind the parenthesis, and the parenthesis is complained of
example :
    let start : State := ⟨.ofTokens (TokenStream.ofText ") b").tokens, []⟩
    Recovers otherStatement start ∧ Runs otherStatement start Parser.script start := by
  intro start
  constructor
  · apply Recovers.otherStatement
    intro stays
    have moved : (otherStatement start).2.cursor.remaining ≠ start.cursor.remaining := by
      decide +kernel
    rw [stays] at moved
    exact moved rfl
  · have other : start.cursor.current.isPunctuation .semicolon = false ∧
        start.cursor.isAtEnd = false ∧ start.cursor.startsQuery = false := by
      decide +kernel
    have notEmpty : acceptPunctuation .semicolon start = (some false, start) := by
      simp [acceptPunctuation, accept, other.1]
    have notAtEnd : look Cursor.isAtEnd start = (some false, start) := by
      rw [look, other.2.1]
    have noQuery : look Cursor.startsQuery start = (some false, start) := by
      rw [look, other.2.2]
    exact .item (.next notEmpty (.next notAtEnd (.next noQuery (.first .here))))

end ParseResult

end QueryNames
