import QueryNames.Proofs.BatchIsolation
import QueryNames.Proofs.OneQuery
import QueryNames.Proofs.Semicolon.Script

/-!
Statements are read apart. Main statement: a text without errors whose groups are all closed, and a
semicolon on a line behind it, leave no trace in what is read behind that line.
-/

namespace QueryNames

namespace Grammar

/-- Parentheses close the groups that they open, and `depth` groups around them. -/
def balances (depth : Nat) : List Token → Bool
  | [] => depth == 0
  | t :: ts =>
      if t.isPunctuation .leftParen then balances (depth + 1) ts
      else if t.isPunctuation .rightParen then
        match depth with
        | 0 => false
        | outer + 1 => balances outer ts
      else balances depth ts

theorem Beside.of_balances {edge : Edge} {front : List Token} {depth : Nat}
    (goesOn : ∀ t ∈ front, t.kind ≠ .endOfInput)
    (balanced : balances depth (front ++ [.endOfInput edge.stop]) = true) :
    Beside edge depth (front ++ [.endOfInput edge.stop]) (front ++ edge.right.tokens) := by
  induction front generalizing depth with
  | nil =>
      obtain rfl : depth = 0 := by
        simpa [balances, Token.isPunctuation, Token.endOfInput] using balanced
      exact .last
  | cons t front ih =>
      obtain ⟨here, later⟩ := List.forall_mem_cons.1 goesOn
      rw [List.cons_append] at balanced ⊢
      rw [List.cons_append]
      unfold balances at balanced
      split at balanced
      · rename_i opens
        exact .opening (Token.isPunctuation_iff.1 opens) (ih later balanced)
      · rename_i noOpening
        split at balanced
        · rename_i closes
          cases depth with
          | zero => contradiction
          | succ depth =>
              exact .closing (Token.isPunctuation_iff.1 closes) (ih later balanced)
        · rename_i noClosing
          exact .other here (by simpa [Token.isPunctuation] using noOpening)
            (by simpa [Token.isPunctuation] using noClosing) (ih later balanced)

end Grammar

namespace TokenStream

/-- A text without lexical errors is cut the same before a line that holds a semicolon. -/
theorem tokens_semicolonLine {a : String} (b : String) (noFault : (ofText a).errors = []) :
    let behind := ofTextAt (.after .start (a ++ "\n;\n").toList) b
    ∃ front, ofText a = ⟨front ++ [.endOfInput (.after .start a.toList)], []⟩ ∧
      (∀ t ∈ front, t.kind ≠ .endOfInput) ∧
      ofText (a ++ "\n;\n" ++ b) =
        ⟨front ++ ⟨.punctuation .semicolon, ";", .after .start (a ++ "\n").toList⟩ :: behind.tokens,
          behind.errors⟩ := by
  intro behind
  have sound : ∀ d ∈ (ofText a).errors, d.isUnclosed = false := by
    rw [noFault]
    nofun
  obtain ⟨front, alone, longer⟩ := ofTextAt_lineFeed (";" ++ "\n" ++ b) (closed_pieces sound)
  have whole : ofText a = ⟨front ++ [.endOfInput (.after .start a.toList)], []⟩ := by
    rw [← alone, ← noFault]
    rfl
  have goesOn : ∀ t ∈ front, t.kind ≠ .endOfInput := by
    obtain ⟨front', stop, tokens, -, goesOn, -⟩ := tokens_ofText a
    obtain ⟨rfl, -⟩ : front' = front ∧ _ := List.append_inj' (tokens.symm.trans alone) rfl
    exact goesOn
  have mark := @ofTextAt_mark ";" ';' [] _ rfl (fun _ => rfl)
    (.after .start (a ++ "\n").toList) b
  have joined : a ++ "\n;\n" ++ b = a ++ "\n" ++ (";" ++ "\n" ++ b) := by
    apply String.toList_injective
    simp
  have place : (Location.start.after (a ++ "\n").toList).after (";" ++ "\n").toList =
      Location.start.after (a ++ "\n;\n").toList := by
    simp
  have noError : (ofTextAt .start a).errors = [] := noFault
  rw [place] at mark
  refine ⟨front, whole, goesOn, ?_⟩
  rw [joined, ofText, longer, mark, noError, List.nil_append]

end TokenStream

namespace ParseResult

open Grammar

section Semicolon

variable {front : List Token} {stop place : Location}

/-- What is read without a complaint is read the same before a semicolon. -/
theorem ofBatch_semicolon (goesOn : ∀ t ∈ front, t.kind ≠ .endOfInput)
    (balanced : balances 0 (front ++ [.endOfInput stop]) = true)
    (quiet : (ofBatch ⟨front ++ [.endOfInput stop], []⟩).errors = []) {behind : List Token}
    (closed : Closed behind) :
    ofBatch ⟨front ++ ⟨.punctuation .semicolon, ";", place⟩ :: behind, []⟩ =
      ⟨⟨(ofBatch ⟨front ++ [.endOfInput stop], []⟩).script.queries ++
          (ofBatch ⟨behind, []⟩).script.queries⟩, (ofBatch ⟨behind, []⟩).errors⟩ := by
  obtain ⟨e, rfl⟩ := Cursor.exists_tokens closed.ne_nil
  have beside := @Beside.of_balances ⟨stop, place, e.tokens⟩ front 0 goesOn balanced
  obtain ⟨c, d, left, right⟩ := beside.exists_cursors
  have abreast : Abreast ⟨stop, place, e.tokens⟩ c d := ⟨0, left ▸ right ▸ beside⟩
  have longer : d.tokens = front ++ ⟨.punctuation .semicolon, ";", place⟩ :: e.tokens := right.symm
  have closedLeft : Closed c.tokens := left ▸ closed_concat front rfl
  have closedRight : Closed d.tokens := longer ▸ (closed.cons _).append front
  obtain ⟨queries, s, run⟩ := Parser.Total.result (p := Parser.script) ⟨c, []⟩
  obtain ⟨others, s', rest⟩ := Parser.Total.result (p := Parser.script) ⟨e, []⟩
  rw [left, ofBatch_script closedLeft run] at quiet
  have noComplaint : s.reported = [] :=
    List.reverse_eq_nil_iff.1 (Diagnostic.eq_nil_of_sort quiet)
  have whole := Parser.script_abreast abreast run noComplaint rest
  rw [← longer, left, ofBatch_script closedLeft run, ofBatch_script closed rest,
    ofBatch_script closedRight whole]

/-- The batches of a longer text: the first one goes on behind the semicolon. -/
theorem ofTokens_semicolon (whole : ∀ t ∈ front, t.endsBatch = false)
    (balanced : balances 0 (front ++ [.endOfInput stop]) = true)
    (quiet : (ofBatch ⟨front ++ [.endOfInput stop], []⟩).errors = []) {behind : TokenStream}
    (closed : Closed behind.tokens) :
    ofTokens ⟨front ++ ⟨.punctuation .semicolon, ";", place⟩ :: behind.tokens, behind.errors⟩ =
      ⟨⟨(ofBatch ⟨front ++ [.endOfInput stop], []⟩).script.queries ++
          (ofTokens behind).script.queries⟩, (ofTokens behind).errors⟩ := by
  have goesOn (t : Token) (member : t ∈ front) : t.kind ≠ .endOfInput :=
    Token.kind_ne_of_endsBatch (whole t member)
  -- the first batch behind the semicolon is part of the same batch as the text before it
  obtain ⟨first, t, rest, split, inside, ends⟩ := Batch.exists_split closed
  have longer : front ++ ⟨.punctuation .semicolon, ";", place⟩ :: behind.tokens =
      (front ++ ⟨.punctuation .semicolon, ";", place⟩ :: first) ++ t :: rest := by
    rw [split, List.append_assoc, List.cons_append]
  have inside' : ∀ u ∈ front ++ ⟨.punctuation .semicolon, ";", place⟩ :: first,
      u.endsBatch = false :=
    List.forall_mem_append.2 ⟨whole, List.forall_mem_cons.2 ⟨rfl, inside⟩⟩
  have read := @ofBatch_semicolon front stop place goesOn balanced quiet _
    (closed_concat first (Batch.isEnd_closing t))
  rw [← List.cons_append, ← List.append_assoc] at read
  have apart {α : Type} {f : ParseResult → List α} (nothing : f ⟨⟨[]⟩, []⟩ = []) {us : List Token}
      (inside : ∀ u ∈ us, u.endsBatch = false) :
      (Batch.ofTokens (us ++ t :: rest)).flatMap (fun batch => f (ofBatch ⟨batch.tokens, []⟩)) =
        f (ofBatch ⟨us ++ [Batch.closing t], []⟩) ++
          (Batch.ofTokens rest).flatMap (fun batch => f (ofBatch ⟨batch.tokens, []⟩)) := by
    rw [Batch.ofTokens_whole inside ends, List.flatMap_append,
      flatMap_unlessEmpty nothing (List.append_ne_nil_of_right_ne_nil us (List.cons_ne_nil _ _))]
  have queries {us : List Token} := @apart _ (·.script.queries) rfl us
  have errors {us : List Token} := @apart _ (·.errors) rfl us
  simp only [ofTokens, List.flatMap_map]
  rw [longer, split, queries inside, queries inside', errors inside, errors inside', read]
  simp only [List.append_assoc]

end Semicolon

/-- A text without errors whose groups are all closed, and a line that holds a semicolon: what
stands behind is read as if it began there. -/
theorem ofText_semicolon (a b : String)
    (oneBatch : ∀ t ∈ (TokenStream.ofText a).tokens, t.isSeparator = false)
    (faultless : (ofText a).errors = [])
    (balanced : balances 0 (TokenStream.ofText a).tokens = true) :
    let behind := ofTokens (.ofTextAt (.after .start (a ++ "\n;\n").toList) b)
    ofText (a ++ "\n;\n" ++ b) =
      ⟨⟨(ofText a).script.queries ++ behind.script.queries⟩, behind.errors⟩ := by
  intro behind
  have noFault : (TokenStream.ofText a).errors = [] := by
    rw [ofText, errors_ofTokens] at faultless
    exact (List.append_eq_nil_iff.1 (Diagnostic.eq_nil_of_sort faultless)).1
  obtain ⟨front, alone, goesOn, longer⟩ := TokenStream.tokens_semicolonLine b noFault
  have whole (t : Token) (member : t ∈ front) : t.endsBatch = false := by
    have apart := oneBatch t (alone ▸ List.mem_append_left _ member)
    simp [Token.endsBatch, apart, Token.isEnd, goesOn t member]
  have read : ofText a = ofTokens ⟨front ++ [.endOfInput (.after .start a.toList)], []⟩ := by
    rw [ofText, alone]
  rw [ofTokens_batch whole rfl] at read
  have quiet : (ofBatch ⟨front ++ [.endOfInput (.after .start a.toList)], []⟩).errors = [] := by
    rw [read] at faultless
    exact Diagnostic.eq_nil_of_sort faultless
  rw [alone] at balanced
  rw [ofText, longer, ofTokens_semicolon whole balanced quiet (closed_concat _ rfl), read]

/-- The first text ends with words that are passed over, the second begins with a parenthesis that
closes nothing. -/
theorem ofText_semicolon_options :
    let a := "SELECT SUM(x) OVER (ORDER BY x ROWS 1 PRECEDING)\n" ++
      "FROM u WITH (NOLOCK) OPTION (RECOMPILE)"
    let b := ") SELECT b"
    let behind := ofTokens (.ofTextAt (.after .start (a ++ "\n;\n").toList) b)
    (∀ t ∈ (TokenStream.ofText a).tokens, t.isSeparator = false) ∧
      (ofText a).errors = [] ∧ balances 0 (TokenStream.ofText a).tokens = true ∧
      behind.errors.map (·.location.offset) = [91] ∧
      ofText (a ++ "\n;\n" ++ b) =
        ⟨⟨(ofText a).script.queries ++ behind.script.queries⟩, behind.errors⟩ := by
  intro a b behind
  have known : (∀ t ∈ (TokenStream.ofText a).tokens, t.isSeparator = false) ∧
      (ofText a).errors = [] ∧ balances 0 (TokenStream.ofText a).tokens = true ∧
      behind.errors.map (·.location.offset) = [91] := by
    decide +kernel
  obtain ⟨oneBatch, faultless, balanced, errors⟩ := known
  exact ⟨oneBatch, faultless, balanced, errors, ofText_semicolon a b oneBatch faultless balanced⟩

end ParseResult

end QueryNames
