import QueryNames.Proofs.Text.Kind
import QueryNames.Proofs.Text.QuotedName
import QueryNames.Proofs.Text.SeparatorLine

/-!
The texts of identifiers. Main statement: an identifier is a part of a name in quotes, or a word
that is its own value; and neither has an empty value.
-/

namespace QueryNames

namespace Text

def blankCodes : List Nat :=
  List.range' 9 5 ++ [0x20, 0x85, 0xa0, 0x1680] ++ List.range' 0x2000 11 ++
    [0x2028, 0x2029, 0x202f, 0x205f, 0x3000]

theorem exists_blankCode {c : Char} (blank : isBlank c = true) :
    ∃ n ∈ blankCodes, c = Char.ofNat n := by
  refine ⟨c.toNat, ?_, c.ofNat_toNat.symm⟩
  simp only [isBlank, Bool.or_eq_true, Bool.and_eq_true, decide_eq_true_eq, beq_iff_eq] at blank
  simp only [blankCodes, List.mem_append, List.mem_range'_1, List.mem_cons, List.not_mem_nil]
  omega

/-- What holds of no blank code holds of ink only. -/
theorem isBlank_of_class {p : Char → Bool} {c : Char}
    (none_ : ∀ n ∈ blankCodes, p (Char.ofNat n) = false) (holds : p c = true) :
    isBlank c = false := by
  cases blank : isBlank c with
  | false => rfl
  | true =>
      obtain ⟨n, member, rfl⟩ := exists_blankCode blank
      rw [none_ n member] at holds
      cases holds

/-- Nothing is cut off a text without blanks. -/
theorem trim_unblank {text : List Char} (inked : ∀ c ∈ text, isBlank c = false) :
    trim text = text := by
  have start {text : List Char} (inked : ∀ c ∈ text, isBlank c = false) :
      trimStart text = text := by
    cases text with
    | nil => rfl
    | cons c text => simp [trimStart, inked c List.mem_cons_self]
  have reversed : ∀ c ∈ text.reverse, isBlank c = false :=
    fun c member => inked c (List.mem_reverse.1 member)
  rw [trim, start inked, trimEnd, start reversed, List.reverse_reverse]

end Text

namespace Piece

structure IsWord (text : List Char) : Prop where
  starts : text.head?.any startsWord = true
  goesOn : ∀ c ∈ text, continuesWord c = true

theorem isBlank_of_continuesWord {c : Char} (inWord : continuesWord c = true) :
    Text.isBlank c = false :=
  Text.isBlank_of_class (by decide +kernel) inWord

theorem startsWord_opening {q : Quote} (isDelimiter : q ≠ .single) :
    startsWord q.opening = false := by
  cases q with
  | single => contradiction
  | bracket => decide +kernel
  | double => decide +kernel

theorem nameValue_of_isWord {text : List Char} (word : IsWord text) :
    nameValue (String.ofList text) = String.ofList text := by
  obtain ⟨starts, goesOn⟩ := word
  have noQuote {q : Quote} (isDelimiter : q ≠ .single) :
      Text.between? q.opening q.closing text = none := by
    cases text with
    | nil => rfl
    | cons c text =>
        have other : c ≠ q.opening := by
          rintro rfl
          rw [List.head?_cons, Option.any_some, startsWord_opening isDelimiter] at starts
          cases starts
        simp [Text.between?, other]
  have plain : Quote.ofName? text = none := by
    simp [Quote.ofName?, noQuote (q := .bracket) (by decide), noQuote (q := .double) (by decide)]
  have whole : Text.trim text = text :=
    Text.trim_unblank fun c member => isBlank_of_continuesWord (goesOn c member)
  rw [nameValue, String.toList_ofList, whole, plain]

/-- What stands before the closing quote is doubled. -/
theorem double_of_splitQuoted {close : Char} {cs text rest : List Char}
    (split : splitQuoted close cs = some (text, rest)) :
    ∃ value, text = Text.double close value ++ [close] := by
  fun_induction splitQuoted close cs generalizing text rest with
  | case1 | case3 => cases split
  | case2 | case5 =>
      cases split
      exact ⟨[], by simp [Text.double, *]⟩
  | case4 r ih =>
      obtain ⟨⟨inner, behind⟩, found, same⟩ := Option.map_eq_some_iff.1 split
      cases same
      obtain ⟨value, rfl⟩ := ih found
      exact ⟨close :: value, by simp [Text.double]⟩
  | case6 c d r other ih =>
      obtain ⟨⟨inner, behind⟩, found, same⟩ := Option.map_eq_some_iff.1 split
      cases same
      obtain ⟨value, rfl⟩ := ih found
      exact ⟨c :: value, by simp [Text.double, other]⟩

/-- What an identifier can be. -/
def Cut.Identifies (cut : Cut) : Prop :=
  cut.kind = .token .identifier → (∃ part : QuotedPart, cut.text = part.text) ∨ IsWord cut.text

theorem delimited_identifies {q : Quote} (isDelimiter : q ≠ .single) (r : List Char) :
    (delimited q.opening q.closing r).Identifies := by
  unfold delimited
  split
  · rename_i text rest split
    obtain ⟨value, rfl⟩ := double_of_splitQuoted split
    by_cases empty : value = []
    · have nothing : Text.double q.closing [] ++ [q.closing] = [q.closing] := rfl
      rw [empty, if_pos nothing]
      nofun
    · intro _
      exact .inl ⟨⟨q, String.ofList value, isDelimiter, by simpa using empty⟩,
        by simp [QuotedPart.text]⟩
  · nofun

theorem continuesWord_of_startsWord {c : Char} (starts : startsWord c = true) :
    continuesWord c = true := by
  simp only [startsWord, Bool.or_eq_true] at starts
  rcases starts with (letter | underscore) | hash
  · simp [continuesWord, Text.isAlphanumeric, letter]
  · simp [continuesWord, underscore]
  · simp [continuesWord, hash]

theorem word_identifies {lineIsBlank : Bool} {text : List Char} (isWord : IsWord text)
    (rest : List Char) : (word lineIsBlank text rest).Identifies := by
  unfold word
  dsimp only
  split
  · nofun
  · split
    · nofun
    · exact fun _ => .inr isWord

theorem cut_identifies (lineIsBlank : Bool) (c : Char) (r : List Char) :
    (cut lineIsBlank c r).Identifies := by
  apply cut_says (Q := fun text => (∃ part : QuotedPart, text = part.text) ∨ IsWord text)
    (by decide) (by decide)
  · exact fun q r isDelimiter => delimited_identifies isDelimiter r
  · exact fun marker _ r => string_says (by decide) (marker ++ ['\'']) r
  · intro starts
    apply word_identifies
    refine ⟨starts, List.forall_mem_cons.2 ⟨continuesWord_of_startsWord starts, ?_⟩⟩
    intro d member
    exact List.all_eq_true.1 List.all_takeWhile d member
  · unfold sign
    split <;> nofun

theorem identifies_of_mem_chain {place : Location} {lineIsBlank : Bool} {cs : List Char}
    {piece : Piece} (member : piece ∈ chain place lineIsBlank cs)
    (kind : piece.kind = .token .identifier) :
    (∃ part : QuotedPart, piece.text = part.text) ∨ IsWord piece.text :=
  holds_of_mem_chain (P := fun kind text => kind = .token .identifier →
    (∃ part : QuotedPart, text = part.text) ∨ IsWord text) cut_identifies member kind

end Piece

namespace TokenStream

variable {origin : Location} {text : String} {t : Token}

/-- A token in a text is a piece of it. -/
theorem exists_piece_of_mem (member : t ∈ (ofTextAt origin text).tokens) (known : t.kind ≠ .unknown)
    (goesOn : t.kind ≠ .endOfInput) : ∃ piece ∈ Piece.chain origin true text.toList,
      piece.kind = .token t.kind ∧ t.text = String.ofList piece.text := by
  rcases List.mem_append.1 member with member | stop
  · obtain ⟨piece, among, isToken⟩ := List.mem_filterMap.1 member
    exact ⟨piece, among, Piece.kind_of_token? isToken known, Piece.text_of_token? isToken⟩
  · rw [List.mem_singleton.1 stop] at goesOn
    cases goesOn rfl

theorem text_of_identifier (member : t ∈ (ofTextAt origin text).tokens)
    (kind : t.kind = .identifier) :
    (∃ part : QuotedPart, t.text = String.ofList part.text) ∨
      ∃ word, Piece.IsWord word ∧ t.text = String.ofList word := by
  obtain ⟨piece, among, isPiece, text⟩ := exists_piece_of_mem member
    (by rw [kind]; nofun) (by rw [kind]; nofun)
  rcases Piece.identifies_of_mem_chain among (kind ▸ isPiece) with ⟨part, quoted⟩ | word
  · exact .inl ⟨part, quoted ▸ text⟩
  · exact .inr ⟨piece.text, word, text⟩

/-- No identifier has an empty value. -/
theorem value_ne_of_identifier (member : t ∈ (ofTextAt origin text).tokens)
    (kind : t.kind = .identifier) : (Identifier.ofToken t).value ≠ "" := by
  rw [Identifier.ofToken]
  rcases text_of_identifier member kind with ⟨part, quoted⟩ | ⟨word, isWord, plain⟩
  · rw [quoted, part.nameValue_text]
    exact part.notEmpty
  · rw [plain, Piece.nameValue_of_isWord isWord]
    intro empty
    have starts := isWord.starts
    rw [String.ofList_eq_empty_iff.1 empty] at starts
    cases starts

end TokenStream

end QueryNames
