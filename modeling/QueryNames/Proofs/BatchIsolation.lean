import QueryNames.Proofs.Batch
import QueryNames.Proofs.DiagnosticOrder
import QueryNames.Proofs.Grammar.Script
import QueryNames.Proofs.Stepwise.Places
import QueryNames.Proofs.Text.SeparatorLine

/-!
Batches are read apart. Main statement: a line that holds GO divides a text into two that are read
each by itself, with all places kept, whatever is wrong in either.
-/

namespace QueryNames

namespace ParseResult

open Grammar

/-- What is wrong with a batch is wrong at one of its tokens. -/
theorem place_of_mem_ofBatch {tokens : List Token} {d : Diagnostic} (closed : Closed tokens)
    (member : d ∈ (ofBatch ⟨tokens, []⟩).errors) : ∃ t ∈ tokens, d.location = t.location := by
  have ends := Parser.Stepwise.keeps (p := Parser.script) (lasting_within _)
    (State.within_ofTokens closed)
  exact ends.reported d (by simpa [ofBatch] using member)

/-- What the grammar finds wrong, batch by batch. -/
def complaints (tokens : List Token) : List Diagnostic :=
  (Batch.ofTokens tokens).flatMap fun batch => (ofBatch ⟨batch.tokens, []⟩).errors

theorem errors_ofTokens (stream : TokenStream) :
    (ofTokens stream).errors = Diagnostic.sort (stream.errors ++ complaints stream.tokens) := by
  simp [ofTokens, complaints, List.flatMap_map]

theorem place_of_mem_complaints {tokens : List Token} {d : Diagnostic} (closed : Closed tokens)
    (member : d ∈ complaints tokens) : ∃ t ∈ tokens, d.location = t.location := by
  obtain ⟨batch, among, member⟩ := List.mem_flatMap.1 member
  obtain ⟨closed, places⟩ := Batch.mem_ofTokens closed among
  obtain ⟨t, member, place⟩ := place_of_mem_ofBatch closed member
  obtain ⟨u, member, place'⟩ := places t member
  exact ⟨u, member, place.trans place'⟩

/-- The errors of a stream stand where it has them, or at its tokens. -/
theorem place_of_mem_ofTokens {stream : TokenStream} {d : Diagnostic}
    (closed : Closed stream.tokens) (member : d ∈ (ofTokens stream).errors) :
    d ∈ stream.errors ∨ ∃ t ∈ stream.tokens, d.location = t.location := by
  rw [errors_ofTokens, Diagnostic.mem_sort] at member
  exact (List.mem_append.1 member).imp_right (place_of_mem_complaints closed)

section Separated

variable {front rest : List Token} {t : Token} {ds es : List Diagnostic}

theorem queries_separated (ends : t.endsBatch = true) :
    (ofTokens ⟨front ++ t :: rest, ds ++ es⟩).script.queries =
      (ofTokens ⟨front ++ [Batch.closing t], ds⟩).script.queries ++
        (ofTokens ⟨rest, es⟩).script.queries := by
  simp [ofTokens, Batch.ofTokens_append front ends]

theorem complaints_separated (ends : t.endsBatch = true) :
    complaints (front ++ t :: rest) =
      complaints (front ++ [Batch.closing t]) ++ complaints rest := by
  rw [complaints, Batch.ofTokens_append front ends, List.flatMap_append]
  rfl

/-- Where all of one stream stands before all of another, the errors of both come in turn. -/
theorem errors_separated {offset : Nat} (ends : t.endsBatch = true) (closed : Closed rest)
    (before : ∀ u ∈ front ++ [Batch.closing t], u.location.offset < offset)
    (before' : ∀ d ∈ ds, d.location.offset < offset)
    (behind : ∀ u ∈ rest, offset ≤ u.location.offset)
    (behind' : ∀ e ∈ es, offset ≤ e.location.offset) :
    (ofTokens ⟨front ++ t :: rest, ds ++ es⟩).errors =
      (ofTokens ⟨front ++ [Batch.closing t], ds⟩).errors ++ (ofTokens ⟨rest, es⟩).errors := by
  simp only [errors_ofTokens]
  rw [complaints_separated ends]
  apply @Diagnostic.sort_stretches offset
  · intro d member
    simp only [Diagnostic.isBefore, decide_eq_true_eq]
    rcases List.mem_append.1 member with member | member
    · exact before' d member
    · obtain ⟨u, member, place⟩ :=
        place_of_mem_complaints (closed_concat front (Batch.isEnd_closing t)) member
      rw [place]
      exact before u member
  · intro d member
    simp only [Diagnostic.isBefore, decide_eq_false_iff_not, Nat.not_lt]
    rcases List.mem_append.1 member with member | member
    · exact behind' d member
    · obtain ⟨u, member, place⟩ := place_of_mem_complaints closed member
      rw [place]
      exact behind u member

end Separated

/-- A text with a separator line in it is read as the text before that line, and as what stands
behind the line, unless something is still open where the line begins. -/
theorem ofText_separator (a b : String)
    (closed : ∀ d ∈ (TokenStream.ofText (a ++ "\n")).errors, d.isUnclosed = false) :
    let before := ofText (a ++ "\n")
    let behind := ofTokens (.ofTextAt (.after .start (a ++ "\nGO\n").toList) b)
    ofText (a ++ "\nGO\n" ++ b) =
      ⟨⟨before.script.queries ++ behind.script.queries⟩, before.errors ++ behind.errors⟩ := by
  intro before behind
  obtain ⟨front, tokens, stream⟩ := TokenStream.ofText_separated b closed
  have here : (Location.start.after (a ++ "\n").toList).offset <
      (Location.start.after (a ++ "\nGO\n").toList).offset := by
    simp only [Location.offset_after, String.ofList_toList, String.utf8ByteSize_append]
    exact Nat.add_lt_add_left (Nat.add_lt_add_left (by decide) _) _
  have text := TokenStream.offset_ofTextAt .start (a ++ "\n")
  have rest := TokenStream.offset_ofTextAt (.after .start (a ++ "\nGO\n").toList) b
  have whole : before = ofTokens ⟨front ++ [.endOfInput (.after .start (a ++ "\n").toList)],
      (TokenStream.ofText (a ++ "\n")).errors⟩ := by
    rw [← tokens]
    rfl
  have separates : Token.endsBatch
      ⟨.batchSeparator, "GO", .after .start (a ++ "\n").toList⟩ = true := rfl
  have queries := @queries_separated front
    (TokenStream.ofTextAt (.after .start (a ++ "\nGO\n").toList) b).tokens _
    (TokenStream.ofText (a ++ "\n")).errors
    (TokenStream.ofTextAt (.after .start (a ++ "\nGO\n").toList) b).errors separates
  have errors := @errors_separated front
    (TokenStream.ofTextAt (.after .start (a ++ "\nGO\n").toList) b).tokens _
    (TokenStream.ofText (a ++ "\n")).errors
    (TokenStream.ofTextAt (.after .start (a ++ "\nGO\n").toList) b).errors
    (Location.start.after (a ++ "\nGO\n").toList).offset separates (closed_concat _ rfl)
    (fun t member => Nat.lt_of_le_of_lt (text.1 t (tokens ▸ member)).2 here)
    (fun d member => Nat.lt_of_le_of_lt (text.2 d member).2 here)
    (fun t member => (rest.1 t member).1) (fun d member => (rest.2 d member).1)
  rw [whole, ofText, stream]
  exact congr (congrArg ParseResult.mk (congrArg Script.mk queries)) errors

/-- Neither text is right, and the group that the first one opens does not take in the second. -/
theorem ofText_separator_openGroup :
    let a := "SELECT (a FROM T"
    let b := "SELECT FROM U"
    let before := ofText (a ++ "\n")
    let behind := ofTokens (.ofTextAt (.after .start (a ++ "\nGO\n").toList) b)
    (∀ d ∈ (TokenStream.ofText (a ++ "\n")).errors, d.isUnclosed = false) ∧
      before.errors.map (·.location.offset) = [10] ∧
      behind.errors.map (·.location.offset) = [27] ∧
      ofText (a ++ "\nGO\n" ++ b) =
        ⟨⟨before.script.queries ++ behind.script.queries⟩, before.errors ++ behind.errors⟩ := by
  intro a b before behind
  have closed : ∀ d ∈ (TokenStream.ofText (a ++ "\n")).errors, d.isUnclosed = false := by
    decide +kernel
  have errors : before.errors.map (·.location.offset) = [10] ∧
      behind.errors.map (·.location.offset) = [27] := by
    decide +kernel
  exact ⟨closed, errors.1, errors.2, ofText_separator a b closed⟩

end ParseResult

end QueryNames
