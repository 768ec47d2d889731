import Mathlib.Data.List.TakeWhile
import QueryNames.Proofs.Batch

/-!
What the batches of a token list are. Main statement: they hold the tokens of the list that end no
batch, and these only; no batch reaches over a separator or an end of input, and one that is cut off
at a separator has its end there.
-/

namespace QueryNames

theorem Token.isSeparator_of_endsBatch {t : Token} (whole : t.endsBatch = false) :
    t.isSeparator = false :=
  (Bool.or_eq_false_iff.1 whole).1

theorem Token.isSeparator_of_isEnd {t : Token} (ends : t.isEnd = true) : t.isSeparator = false := by
  rw [isEnd_iff] at ends
  simp [isSeparator, ends]

namespace Batch

/-- Some token that ends no batch, no separator, and no end of input but the last token. -/
structure Sound (batch : Batch) : Prop where
  inked : ∃ t ∈ batch.tokens, t.endsBatch = false
  noSeparator : ∀ t ∈ batch.tokens, t.isSeparator = false
  endsLast : ∀ t ∈ batch.tokens.dropLast, t.isEnd = false

variable {tokens stretch : List Token} {cut t stop : Token} {batch : Batch}

theorem ofTokens_uncut (whole : ∀ t ∈ tokens, t.endsBatch = false) :
    ofTokens tokens = unlessEmpty tokens := by
  have dropped : tokens.dropWhile (!·.endsBatch) = [] :=
    List.dropWhile_eq_nil_iff.2 (by simpa using whole)
  rw [ofTokens]
  split
  · rfl
  · rename_i some_
    rw [dropped] at some_
    cases some_

/-- Stretch by stretch, each up to the first end of a batch. -/
theorem stretch_induction {motive : List Token → Prop}
    (last : ∀ stretch, (∀ t ∈ stretch, t.endsBatch = false) → motive stretch)
    (more : ∀ stretch cut rest, (∀ t ∈ stretch, t.endsBatch = false) → cut.endsBatch = true →
      motive rest → motive (stretch ++ cut :: rest))
    (tokens : List Token) : motive tokens := by
  fun_induction ofTokens tokens with
  | case1 tokens none_ =>
      apply last
      intro t member
      simpa using List.dropWhile_eq_nil_iff.1 none_ t member
  | case2 tokens cut rest some_ ih =>
      obtain ⟨split, ends⟩ := split_of_dropWhile some_
      rw [split]
      exact more _ cut rest (fun _ => endsBatch_of_takeWhile) ends ih

theorem exists_of_mem_unlessEmpty (member : batch ∈ unlessEmpty tokens) :
    ∃ t ∈ tokens, t.isEnd = false := by
  simp only [unlessEmpty] at member
  split at member
  · cases member
  · rename_i inked
    simpa [isEmpty] using inked

theorem sound_of_whole (whole : ∀ t ∈ stretch, t.endsBatch = false)
    (member : batch ∈ unlessEmpty stretch) : batch.Sound := by
  obtain ⟨t, among, -⟩ := exists_of_mem_unlessEmpty member
  obtain rfl := mem_unlessEmpty member
  constructor
  · exact ⟨t, among, whole t among⟩
  · intro u among
    exact Token.isSeparator_of_endsBatch (whole u among)
  · intro u among
    exact Token.isEnd_of_endsBatch (whole u (List.dropLast_subset _ among))

theorem sound_of_closing (whole : ∀ t ∈ stretch, t.endsBatch = false)
    (member : batch ∈ unlessEmpty (stretch ++ [closing cut])) : batch.Sound := by
  obtain ⟨t, among, goesOn⟩ := exists_of_mem_unlessEmpty member
  obtain rfl := mem_unlessEmpty member
  constructor
  · rcases List.mem_append.1 among with inside | last
    · exact ⟨t, List.mem_append_left _ inside, whole t inside⟩
    · rw [List.mem_singleton.1 last, isEnd_closing] at goesOn
      cases goesOn
  · intro u among
    rcases List.mem_append.1 among with inside | last
    · exact Token.isSeparator_of_endsBatch (whole u inside)
    · rw [List.mem_singleton.1 last]
      exact Token.isSeparator_of_isEnd (isEnd_closing cut)
  · intro u among
    rw [List.dropLast_concat] at among
    exact Token.isEnd_of_endsBatch (whole u among)

theorem sound_of_mem (member : batch ∈ ofTokens tokens) : batch.Sound := by
  induction tokens using stretch_induction with
  | last stretch whole =>
      rw [ofTokens_uncut whole] at member
      exact sound_of_whole whole member
  | more stretch cut rest whole ends ih =>
      rw [ofTokens_whole whole ends] at member
      rcases List.mem_append.1 member with first | later
      · exact sound_of_closing whole first
      · exact ih later

/-- Where the list ends at a cut, all batches have their ends. -/
theorem closed_of_mem_concat (front : List Token) (ends : cut.endsBatch = true)
    (member : batch ∈ ofTokens (front ++ [cut])) : Grammar.Closed batch.tokens := by
  rw [ofTokens_append front ends, ofTokens_nil, List.append_nil] at member
  exact (mem_ofTokens (Grammar.closed_concat front (isEnd_closing cut)) member).1

private theorem mem_dropLast_append {α : Type} {x : α} {a b : List α}
    (member : x ∈ (a ++ b).dropLast) : x ∈ a ∨ x ∈ b.dropLast := by
  cases b with
  | nil =>
      rw [List.append_nil] at member
      exact .inl (List.dropLast_subset _ member)
  | cons y b =>
      rw [List.dropLast_append_of_ne_nil (List.cons_ne_nil y b)] at member
      exact List.mem_append.1 member

theorem closed_of_mem_dropLast (member : batch ∈ (ofTokens tokens).dropLast) :
    Grammar.Closed batch.tokens := by
  induction tokens using stretch_induction with
  | last stretch whole =>
      rw [ofTokens_uncut whole] at member
      simp only [unlessEmpty] at member
      split at member <;> cases member
  | more stretch cut rest whole ends ih =>
      rw [ofTokens_whole whole ends] at member
      rcases mem_dropLast_append member with first | later
      · obtain rfl := mem_unlessEmpty first
        exact Grammar.closed_concat stretch (isEnd_closing cut)
      · exact ih later

/-- The batch of a token that stands right before an end of input ends with both. -/
theorem ofTokens_concat_stop (front : List Token) (whole : t.endsBatch = false)
    (ends : stop.isEnd = true) :
    ∃ others stretch, ofTokens (front ++ [t, stop]) = others ++ [⟨stretch ++ [t, stop]⟩] := by
  induction front using stretch_induction with
  | last stretch inside =>
      have inside : ∀ u ∈ stretch ++ [t], u.endsBatch = false :=
        List.forall_mem_append.2 ⟨inside, by simpa using whole⟩
      have closed : closing stop = stop := if_pos ends
      have inked : isEmpty ⟨stretch ++ [t] ++ [stop]⟩ = false := by
        simp [isEmpty, Token.isEnd_of_endsBatch whole]
      have joined : stretch ++ [t, stop] = stretch ++ [t] ++ [stop] := List.append_cons ..
      refine ⟨[], stretch, ?_⟩
      rw [joined, ofTokens_whole inside (by simp [Token.endsBatch, ends]), closed, ofTokens_nil,
        List.append_nil, unlessEmpty, inked]
      rfl
  | more stretch cut rest inside cuts ih =>
      obtain ⟨others, stretch', split⟩ := ih
      refine ⟨unlessEmpty (stretch ++ [closing cut]) ++ others, stretch', ?_⟩
      rw [List.append_assoc, List.cons_append, ofTokens_whole inside cuts, split, List.append_assoc]

theorem filter_concat_closing (front : List Token) (cut : Token) :
    (front ++ [closing cut]).filter (!·.endsBatch) = front.filter (!·.endsBatch) := by
  simp [closing_endsBatch]

/-- The batches of any tokens. What stands on different sides of a cut is in different batches, and
what stands right before one is in a batch that has its end there. -/
theorem ofTokens_division (tokens : List Token) :
    let batches := ofTokens tokens
    content batches = tokens.filter (!·.endsBatch) ∧
      (∀ batch ∈ batches, batch.Sound) ∧
      (∀ batch ∈ batches.dropLast, Grammar.Closed batch.tokens) ∧
      (tokens.getLast?.any (·.endsBatch) = true →
        ∀ batch ∈ batches, Grammar.Closed batch.tokens) ∧
      ∀ before cut behind, tokens = before ++ cut :: behind → cut.endsBatch = true →
        ∃ left right, batches = left ++ right ∧
          content left = before.filter (!·.endsBatch) ∧
          content right = behind.filter (!·.endsBatch) ∧
          ∀ t, before.getLast? = some t → t.endsBatch = false →
            ∃ others stretch stop, left = others ++ [⟨stretch ++ [t, stop]⟩] ∧
              (cut.isSeparator = true → stop = .endOfInput cut.location) ∧
              (cut.isEnd = true → stop = cut) := by
  intro batches
  apply And.intro (content_ofTokens tokens)
  apply And.intro (fun _ => sound_of_mem)
  apply And.intro (fun _ => closed_of_mem_dropLast)
  constructor
  · intro last batch member
    obtain ⟨cut, found, ends⟩ := (Option.any_eq_true _ _).1 last
    obtain ⟨front, split⟩ := List.getLast?_eq_some_iff.1 found
    subst split
    exact closed_of_mem_concat front ends member
  · intro before cut behind split ends
    subst split
    refine ⟨ofTokens (before ++ [closing cut]), ofTokens behind, ofTokens_append before ends,
      ?_, content_ofTokens behind, ?_⟩
    · rw [content_ofTokens, filter_concat_closing]
    · intro t last whole
      obtain ⟨front, split⟩ := List.getLast?_eq_some_iff.1 last
      subst split
      obtain ⟨others, stretch, cutOff⟩ := ofTokens_concat_stop front whole (isEnd_closing cut)
      refine ⟨others, stretch, closing cut, ?_, fun separates => ?_, fun stops => if_pos stops⟩
      · rw [← cutOff, List.append_assoc]
        rfl
      · apply if_neg
        intro stops
        rw [Token.isSeparator_of_isEnd stops] at separates
        cases separates

end Batch

end QueryNames
