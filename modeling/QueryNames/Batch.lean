import QueryNames.TokenStream

/-!
Batches: the stretches of a token list between batch separators and ends of input. Main statement:
the batches without their ends are the list without its separators and ends.
-/

namespace QueryNames

structure Batch where
  tokens : List Token
  deriving DecidableEq, Repr

def Token.isSeparator (t : Token) : Bool := t.kind == .batchSeparator

def Token.endsBatch (t : Token) : Bool := t.isSeparator || t.isEnd

theorem Token.isEnd_of_endsBatch {t : Token} (whole : t.endsBatch = false) : t.isEnd = false :=
  (Bool.or_eq_false_iff.1 whole).2

theorem Token.kind_ne_of_endsBatch {t : Token} (whole : t.endsBatch = false) :
    t.kind ≠ .endOfInput := by
  simpa [isEnd] using isEnd_of_endsBatch whole

namespace Batch

/-- Nothing but ends of input. -/
def isEmpty (batch : Batch) : Bool := batch.tokens.all (·.isEnd)

def unlessEmpty (tokens : List Token) : List Batch :=
  let batch : Batch := ⟨tokens⟩
  if batch.isEmpty then [] else [batch]

/-- A separator ends its batch as an end of input at its own place. -/
def closing (t : Token) : Token := if t.isEnd then t else .endOfInput t.location

/-- Batches that hold no token are left out. Only the last one can lack its end. -/
def ofTokens (tokens : List Token) : List Batch :=
  match _h : tokens.dropWhile (!·.endsBatch) with
  | [] => unlessEmpty tokens
  | t :: rest =>
      unlessEmpty (tokens.takeWhile (!·.endsBatch) ++ [closing t]) ++ ofTokens rest
termination_by tokens.length
decreasing_by
  have := (List.dropWhile_sublist (fun t : Token => !t.endsBatch) (l := tokens)).length_le
  rw [_h] at this
  exact this

/-- The tokens of batches, their ends left out. -/
def content (batches : List Batch) : List Token :=
  batches.flatMap fun batch => batch.tokens.filter (!·.isEnd)

@[simp] theorem content_append (a b : List Batch) :
    content (a ++ b) = content a ++ content b := List.flatMap_append

@[simp] theorem content_unlessEmpty (tokens : List Token) :
    content (unlessEmpty tokens) = tokens.filter (!·.isEnd) := by
  by_cases h : tokens.all (·.isEnd) = true
  · have : tokens.filter (!·.isEnd) = [] :=
      List.filter_eq_nil_iff.2 fun t ht => by simp [List.all_eq_true.1 h t ht]
    simp [unlessEmpty, isEmpty, h, content, this]
  · simp [unlessEmpty, isEmpty, h, content]

@[simp] theorem isEnd_closing (t : Token) : (closing t).isEnd = true := by
  unfold closing
  split <;> simp [*]

private theorem endsBatch_of_mem_takeWhile {tokens : List Token} {t : Token}
    (h : t ∈ tokens.takeWhile (!·.endsBatch)) : t.endsBatch = false := by
  simpa using List.all_eq_true.1 (List.all_takeWhile (p := (!·.endsBatch)) (l := tokens)) t h

private theorem filter_takeWhile_endsBatch (tokens : List Token) :
    (tokens.takeWhile (!·.endsBatch)).filter (!·.isEnd) =
      (tokens.takeWhile (!·.endsBatch)).filter (!·.endsBatch) := by
  refine List.filter_congr fun t ht => ?_
  have := endsBatch_of_mem_takeWhile ht
  simp_all [Token.endsBatch]

theorem content_ofTokens (tokens : List Token) :
    content (ofTokens tokens) = tokens.filter (!·.endsBatch) := by
  fun_induction ofTokens tokens with
  | case1 tokens h =>
    have htake : tokens.takeWhile (!·.endsBatch) = tokens := by
      simpa [h] using List.takeWhile_append_dropWhile (p := (!·.endsBatch)) (l := tokens)
    rw [content_unlessEmpty, ← htake, filter_takeWhile_endsBatch]
  | case2 tokens t rest h ih =>
    have ht : t.endsBatch = true := by
      have := List.head?_dropWhile_not (fun t : Token => !t.endsBatch) tokens
      simpa [h] using this
    conv => rhs; rw [← List.takeWhile_append_dropWhile (p := (!·.endsBatch)) (l := tokens), h]
    simp [ih, ht, filter_takeWhile_endsBatch]

end Batch

end QueryNames
