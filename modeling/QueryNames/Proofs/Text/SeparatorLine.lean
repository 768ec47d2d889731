import QueryNames.Proofs.Text.LineEnd

/-!
Texts around a line that holds GO. Main statement: if everything in the text before it comes to its
end there, the pieces of the whole are those of the text before the line, the separator, and what
follows as a text that begins behind the line.
-/

namespace QueryNames.Piece

theorem cut_go (cs : List Char) :
    cut true 'G' ('O' :: '\n' :: cs) = ⟨.token .batchSeparator, ['G', 'O'], '\n' :: cs⟩ := by
  have letter : continuesWord 'O' = true := by decide +kernel
  have taken : ('O' :: '\n' :: cs).takeWhile continuesWord = ['O'] := by
    simp [letter, continuesWord_lineFeed]
  have dropped : ('O' :: '\n' :: cs).dropWhile continuesWord = '\n' :: cs := by
    simp [letter, continuesWord_lineFeed]
  have tail : separatorTail? ('\n' :: cs) = some [] := by simp [separatorTail?]
  have separates : word true ['G', 'O'] ('\n' :: cs) =
      ⟨.token .batchSeparator, ['G', 'O'], '\n' :: cs⟩ := by
    rw [word, tail]
    rfl
  have starts : startsWord 'G' = true := by decide +kernel
  show ((word? true 'G' ('O' :: '\n' :: cs)).getD _) = _
  rw [word?, if_pos starts, taken, dropped, separates]
  rfl

theorem location_of_token? {piece : Piece} {t : Token} (is : piece.token? = some t) :
    t.location = piece.location := by
  unfold token? at is
  split at is <;> cases is <;> rfl

theorem kind_of_token? {piece : Piece} {t : Token} (is : piece.token? = some t)
    (known : t.kind ≠ .unknown) : piece.kind = .token t.kind := by
  unfold token? at is
  split at is <;> cases is
  · assumption
  · contradiction

theorem text_of_token? {piece : Piece} {t : Token} (is : piece.token? = some t) :
    t.text = String.ofList piece.text := by
  unfold token? at is
  split at is <;> cases is <;> rfl

theorem location_of_diagnostic? {piece : Piece} {d : Diagnostic} (is : piece.diagnostic? = some d) :
    d.location = piece.location := by
  unfold diagnostic? at is
  split at is <;> cases is <;> rfl

theorem offset_lt_after (place : Location) {text : List Char} (inked : text ≠ []) :
    place.offset < (place.after text).offset := by
  obtain ⟨c, r, rfl⟩ := List.exists_cons_of_ne_nil inked
  have size := c.utf8Size_pos
  rw [Location.after_cons, Location.offset_after, Location.offset_step]
  omega

theorem offset_of_mem_chain {place : Location} {lineIsBlank : Bool} {cs : List Char}
    {piece : Piece} (member : piece ∈ chain place lineIsBlank cs) :
    place.offset ≤ piece.location.offset ∧ piece.location.offset < (place.after cs).offset := by
  fun_induction chain place lineIsBlank cs with
  | case1 => cases member
  | case2 place lineIsBlank c r first ih =>
      have split := cut_splits lineIsBlank c r
      have whole : place.after (c :: r) = (place.after first.text).after first.rest := by
        rw [← split.append, Location.after_append]
      have step : place.offset < (place.after first.text).offset :=
        offset_lt_after place split.text_ne_nil
      have last := Location.offset_after (place.after first.text) first.rest
      rw [whole]
      rcases List.mem_cons.1 member with rfl | behind
      · dsimp only
        omega
      · have inside := ih behind
        omega

/-- Pieces stand one behind the other. -/
theorem chain_rises (place : Location) (lineIsBlank : Bool) (cs : List Char) :
    (chain place lineIsBlank cs).Pairwise fun p q => p.location.offset < q.location.offset := by
  fun_induction chain place lineIsBlank cs with
  | case1 => exact .nil
  | case2 place lineIsBlank c r first ih =>
      apply List.pairwise_cons.2 ⟨fun piece member => ?_, ih⟩
      have here := offset_lt_after place (cut_splits lineIsBlank c r).text_ne_nil
      have there := (offset_of_mem_chain member).1
      exact Nat.lt_of_lt_of_le here there

end QueryNames.Piece

namespace QueryNames

namespace TokenStream

/-- Tokens and errors stand in the text. -/
theorem offset_ofTextAt (origin : Location) (text : String) :
    (∀ t ∈ (ofTextAt origin text).tokens, origin.offset ≤ t.location.offset ∧
        t.location.offset ≤ (origin.after text.toList).offset) ∧
      ∀ d ∈ (ofTextAt origin text).errors, origin.offset ≤ d.location.offset ∧
        d.location.offset ≤ (origin.after text.toList).offset := by
  have places {piece : Piece} (member : piece ∈ Piece.chain origin true text.toList) :=
    Piece.offset_of_mem_chain member
  constructor
  · intro t member
    rcases List.mem_append.1 member with member | member
    · obtain ⟨piece, among, is⟩ := List.mem_filterMap.1 member
      rw [Piece.location_of_token? is]
      exact (places among).imp_right Nat.le_of_lt
    · rw [List.mem_singleton.1 member]
      have size := Location.offset_after origin text.toList
      exact ⟨by show origin.offset ≤ (origin.after _).offset; omega, Nat.le_refl _⟩
  · intro d member
    obtain ⟨piece, among, is⟩ := List.mem_filterMap.1 member
    rw [Piece.location_of_diagnostic? is]
    exact (places among).imp_right Nat.le_of_lt

/-- The tokens of a text with a separator line in it. -/
theorem ofText_separated {a : String} (b : String)
    (closed : ∀ d ∈ (ofText (a ++ "\n")).errors, d.isUnclosed = false) :
    let here := Location.start.after (a ++ "\n").toList
    let behind := ofTextAt (.after .start (a ++ "\nGO\n").toList) b
    ∃ front, (ofText (a ++ "\n")).tokens = front ++ [.endOfInput here] ∧
      ofText (a ++ "\nGO\n" ++ b) = ⟨front ++ ⟨.batchSeparator, "GO", here⟩ :: behind.tokens,
        (ofText (a ++ "\n")).errors ++ behind.errors⟩ := by
  intro here behind
  have mark := @ofTextAt_mark "GO" 'G' ['O'] _ rfl Piece.cut_go here b
  have joined : a ++ "\nGO\n" ++ b = a ++ "\n" ++ ("GO" ++ "\n" ++ b) := by
    apply String.toList_injective
    simp
  have place : here.after ("GO" ++ "\n").toList =
      Location.start.after (a ++ "\nGO\n").toList := by
    simp [here]
  obtain ⟨front, alone, longer⟩ := ofTextAt_line ("GO" ++ "\n" ++ b) closed
  apply Exists.intro front
  apply And.intro alone
  rw [joined, ofText, longer, mark, place]
  rfl

end TokenStream

end QueryNames
