import QueryNames.Batch
import QueryNames.Proofs.Grammar.Cursor

/-!
Token lists batch by batch. Main statement: the batches on both sides of an end are those of the two
lists that it stands between.
-/

namespace QueryNames

namespace Batch

variable {front rest : List Token} {t : Token}

theorem ofTokens_nil : ofTokens [] = [] := by
  rw [ofTokens]
  rfl

/-- Tokens up to the first end of a batch. -/
theorem ofTokens_whole (whole : ∀ t ∈ front, t.endsBatch = false) (ends : t.endsBatch = true) :
    ofTokens (front ++ t :: rest) = unlessEmpty (front ++ [closing t]) ++ ofTokens rest := by
  have inside : ∀ t ∈ front, (!t.endsBatch) = true := by simpa using whole
  have taken : (front ++ t :: rest).takeWhile (!·.endsBatch) = front := by
    rw [List.takeWhile_append_of_pos inside, List.takeWhile_cons_of_neg (by simp [ends]),
      List.append_nil]
  have dropped : (front ++ t :: rest).dropWhile (!·.endsBatch) = t :: rest := by
    rw [List.dropWhile_append_of_pos inside, List.dropWhile_cons_of_neg (by simp [ends])]
  rw [ofTokens]
  split
  · rename_i none_
    rw [dropped] at none_
    cases none_
  · rename_i u others some_
    rw [dropped] at some_
    cases some_
    rw [taken]

theorem closing_endsBatch (t : Token) : (closing t).endsBatch = true := by
  simp [Token.endsBatch]

@[simp] theorem closing_closing (t : Token) : closing (closing t) = closing t := by
  rw [closing, if_pos (isEnd_closing t)]

theorem endsBatch_of_takeWhile {tokens : List Token} {t : Token}
    (member : t ∈ tokens.takeWhile (!·.endsBatch)) : t.endsBatch = false := by
  simpa using List.all_eq_true.1 (List.all_takeWhile (p := (!·.endsBatch)) (l := tokens)) t member

/-- Tokens with an end of a batch among them go up to the first one. -/
theorem split_of_dropWhile {tokens : List Token}
    (some_ : tokens.dropWhile (!·.endsBatch) = t :: rest) :
    tokens = tokens.takeWhile (!·.endsBatch) ++ t :: rest ∧ t.endsBatch = true := by
  constructor
  · rw [← some_, List.takeWhile_append_dropWhile]
  · have first := List.head?_dropWhile_not (fun t : Token => !t.endsBatch) tokens
    simpa [some_] using first

/-- Tokens that close with an end of input go up to the first end of a batch. -/
theorem exists_split {tokens : List Token} (closed : Grammar.Closed tokens) :
    ∃ front t rest, tokens = front ++ t :: rest ∧ (∀ u ∈ front, u.endsBatch = false) ∧
      t.endsBatch = true := by
  cases dropped : tokens.dropWhile (!·.endsBatch) with
  | nil =>
      obtain ⟨last, found, ends⟩ := (Option.any_eq_true _ _).1 closed
      have taken := List.takeWhile_append_dropWhile (p := (!·.endsBatch)) (l := tokens)
      rw [dropped, List.append_nil] at taken
      have inside := endsBatch_of_takeWhile (taken.symm ▸ List.mem_of_getLast? found)
      simp [Token.endsBatch, ends] at inside
  | cons t rest =>
      obtain ⟨split, ends⟩ := split_of_dropWhile dropped
      exact ⟨_, t, rest, split, fun u => endsBatch_of_takeWhile, ends⟩

/-- Tokens that close with an end of input are those of a last batch, or those of one batch and more
tokens of that sort. -/
theorem closed_induction {motive : ∀ tokens, Grammar.Closed tokens → Prop}
    (last : ∀ front t, (∀ u ∈ front, u.endsBatch = false) → t.endsBatch = true →
      ∀ closed : Grammar.Closed (front ++ [t]), motive _ closed)
    (more : ∀ front t rest, (∀ u ∈ front, u.endsBatch = false) → t.endsBatch = true →
      ∀ (closedRest : Grammar.Closed rest) (closed : Grammar.Closed (front ++ t :: rest)),
        motive rest closedRest → motive _ closed)
    {tokens : List Token} (closed : Grammar.Closed tokens) : motive tokens closed := by
  induction length : tokens.length using Nat.strongRecOn generalizing tokens with
  | ind n ih =>
      obtain ⟨front, t, rest, rfl, whole, ends⟩ := exists_split closed
      by_cases nothing : rest = []
      · subst nothing
        exact last front t whole ends closed
      · have suffix : rest <:+ front ++ t :: rest :=
          (List.suffix_cons t rest).trans (List.suffix_append _ _)
        have closedRest := closed.of_suffix suffix nothing
        have fewer : rest.length < n := by
          rw [← length, List.length_append, List.length_cons]
          omega
        exact more front t rest whole ends closedRest closed (ih rest.length fewer closedRest rfl)

/-- The batches on both sides of an end. -/
theorem ofTokens_append (front : List Token) (ends : t.endsBatch = true) :
    ofTokens (front ++ t :: rest) = ofTokens (front ++ [closing t]) ++ ofTokens rest := by
  fun_induction ofTokens front with
  | case1 front none_ =>
      have whole : ∀ u ∈ front, u.endsBatch = false := by
        intro u member
        apply @endsBatch_of_takeWhile front
        rwa [← List.takeWhile_append_dropWhile (p := (!·.endsBatch)) (l := front), none_,
          List.append_nil] at member
      rw [ofTokens_whole whole ends, ofTokens_whole whole (closing_endsBatch t), closing_closing,
        ofTokens_nil, List.append_nil]
  | case2 front u others some_ ih =>
      obtain ⟨split, ends'⟩ := split_of_dropWhile some_
      rw [split, List.append_assoc, List.append_assoc, List.cons_append, List.cons_append,
        ofTokens_whole (fun _ => endsBatch_of_takeWhile) ends',
        ofTokens_whole (fun _ => endsBatch_of_takeWhile) ends', ih, List.append_assoc]

theorem mem_unlessEmpty {tokens : List Token} {batch : Batch}
    (member : batch ∈ unlessEmpty tokens) : batch = ⟨tokens⟩ := by
  simp only [unlessEmpty] at member
  split at member
  · cases member
  · exact List.mem_singleton.1 member

/-- A batch of tokens that close with an end of input closes with one, and stands where they do. -/
theorem mem_ofTokens {tokens : List Token} {batch : Batch} (closed : Grammar.Closed tokens)
    (member : batch ∈ ofTokens tokens) :
    Grammar.Closed batch.tokens ∧ ∀ t ∈ batch.tokens, ∃ u ∈ tokens, t.location = u.location := by
  fun_induction ofTokens tokens with
  | case1 tokens none_ =>
      obtain rfl := mem_unlessEmpty member
      exact ⟨closed, fun t member => ⟨t, member, rfl⟩⟩
  | case2 tokens u others some_ ih =>
      obtain ⟨split, -⟩ := split_of_dropWhile some_
      have front {t : Token} (member : t ∈ tokens.takeWhile (!·.endsBatch)) : t ∈ tokens := by
        rw [split]
        exact List.mem_append_left _ member
      have here : u ∈ tokens := by
        rw [split]
        exact List.mem_append_right _ List.mem_cons_self
      rcases List.mem_append.1 member with first | later
      · obtain rfl := mem_unlessEmpty first
        refine ⟨Grammar.closed_concat _ (isEnd_closing u), fun t member => ?_⟩
        rcases List.mem_append.1 member with member | member
        · exact ⟨t, front member, rfl⟩
        · obtain rfl := List.mem_singleton.1 member
          exact ⟨u, here, by unfold closing; split <;> rfl⟩
      · have suffix : others <:+ tokens := by
          rw [split]
          exact (List.suffix_cons u others).trans (List.suffix_append _ _)
        have nonempty : others ≠ [] := by
          rintro rfl
          rw [ofTokens_nil] at later
          cases later
        obtain ⟨closed, places⟩ := ih (closed.of_suffix suffix nonempty) later
        refine ⟨closed, fun t member => ?_⟩
        obtain ⟨u, among, same⟩ := places t member
        exact ⟨u, suffix.subset among, same⟩

end Batch

end QueryNames
