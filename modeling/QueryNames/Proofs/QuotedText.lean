import QueryNames.Grammar.Expression
import QueryNames.Proofs.Text.DottedName
import QueryNames.Proofs.Text.Identifier

/-!
Quoted text. Main statement: a string is read back as the value that it was written for, whatever it
holds, and every string and every name in quotes is what its value is written as.
-/

namespace QueryNames

open Piece (stringMarkers of_mem_stringMarkers)

/-- The text of a string: its marker, and its value in quotes. -/
def stringText (marker : List Char) (value : String) : String :=
  String.ofList (marker ++ Quote.single.write value)

section Strings

variable {marker : List Char}

theorem stringValue_stringText (known : marker ∈ stringMarkers) (value : String) :
    stringValue (stringText marker value) = value := by
  have inside : Text.between? '\'' '\'' (Quote.single.write value) =
      some (Text.double '\'' value.toList) := Text.between?_append _ _ _
  have unmarked : stringValue (stringText marker value) =
      String.ofList (Text.halve '\'' ((Text.between? '\'' '\'' (Quote.single.write value)).getD
        (Quote.single.write value))) := by
    rw [stringValue, stringText, String.toList_ofList]
    apply of_mem_stringMarkers known <;> rfl
  rw [unmarked, inside, Option.getD_some, Text.halve_double, String.ofList_toList]

namespace Piece

/-- A quote opens a string, whatever stands behind it. -/
theorem cut_string (known : marker ∈ stringMarkers) (lineIsBlank : Bool) (r : List Char) :
    ∃ c more, marker ++ '\'' :: r = c :: more ∧
      cut lineIsBlank c more = string (marker ++ ['\'']) r := by
  apply of_mem_stringMarkers known <;> exact ⟨_, _, rfl, rfl⟩

theorem string_double (opening text : List Char) :
    string opening (Text.double '\'' text ++ ['\'']) =
      ⟨.token .stringLiteral, opening ++ (Text.double '\'' text ++ ['\'']), []⟩ := by
  rw [string, splitQuoted_double text (by simp)]

end Piece

/-- A value in quotes is one string. -/
theorem TokenStream.ofTextAt_stringText (known : marker ∈ stringMarkers) (origin : Location)
    (value : String) : ofTextAt origin (stringText marker value) =
      ⟨[⟨.stringLiteral, stringText marker value, origin⟩,
        .endOfInput (origin.after (stringText marker value).toList)], []⟩ := by
  obtain ⟨c, more, split, first⟩ :=
    Piece.cut_string known true (Text.double '\'' value.toList ++ ['\''])
  have written : (stringText marker value).toList = c :: more := by
    rw [stringText, String.toList_ofList, ← split]
    rfl
  have whole : marker ++ ['\''] ++ (Text.double '\'' value.toList ++ ['\'']) = c :: more := by
    rw [← split, List.append_assoc, List.singleton_append]
  rw [Piece.string_double, whole] at first
  have one : Piece.chain origin true (c :: more) =
      [⟨.token .stringLiteral, c :: more, origin⟩] := by
    rw [Piece.chain_cut first, Piece.chain]
  rw [TokenStream.ofTextAt, written, one, ← String.ofList_toList (s := stringText marker value),
    written]
  rfl

end Strings

namespace Piece

/-- What a string can be. -/
def Cut.Recites (cut : Cut) : Prop :=
  cut.kind = .token .stringLiteral → ∃ marker ∈ stringMarkers, ∃ value,
    cut.text = marker ++ Quote.single.write value

theorem string_recites {marker : List Char} (known : marker ∈ stringMarkers) (r : List Char) :
    (string (marker ++ ['\'']) r).Recites := by
  unfold string
  split
  · rename_i text rest split
    obtain ⟨value, rfl⟩ := double_of_splitQuoted split
    intro _
    refine ⟨marker, known, String.ofList value, ?_⟩
    simp [Quote.write, Quote.opening, Quote.closing]
  · intro literal
    cases literal

theorem cut_recites (lineIsBlank : Bool) (c : Char) (r : List Char) :
    (cut lineIsBlank c r).Recites := by
  apply cut_says (Q := fun text => ∃ marker ∈ stringMarkers, ∃ value,
    text = marker ++ Quote.single.write value) (by decide) (by decide)
  · exact fun q r _ => delimited_says (by decide) q.opening q.closing r
  · exact fun marker known r => string_recites known r
  · exact fun _ => word_says (by decide) (by simp) (by decide) lineIsBlank _ _
  · unfold sign
    split <;> exact fun literal => by cases literal

theorem recites_of_mem_chain {place : Location} {lineIsBlank : Bool} {cs : List Char}
    {piece : Piece} (member : piece ∈ chain place lineIsBlank cs)
    (kind : piece.kind = .token .stringLiteral) : ∃ marker ∈ stringMarkers, ∃ value,
      piece.text = marker ++ Quote.single.write value :=
  holds_of_mem_chain (P := fun kind text => kind = .token .stringLiteral →
    ∃ marker ∈ stringMarkers, ∃ value, text = marker ++ Quote.single.write value) cut_recites member
    kind

end Piece

namespace TokenStream

variable {origin : Location} {text : String} {t : Token}

/-- A string is its value, put back in quotes behind its marker. -/
theorem text_of_stringLiteral (member : t ∈ (ofTextAt origin text).tokens)
    (kind : t.kind = .stringLiteral) :
    ∃ marker ∈ stringMarkers, t.text = stringText marker (stringValue t.text) := by
  obtain ⟨piece, among, isPiece, same⟩ := exists_piece_of_mem member
    (by rw [kind]; nofun) (by rw [kind]; nofun)
  obtain ⟨marker, known, value, written⟩ :=
    Piece.recites_of_mem_chain among (isPiece.trans (congrArg _ kind))
  have whole : t.text = stringText marker value := by rw [same, written, stringText]
  refine ⟨marker, known, ?_⟩
  rw [whole, stringValue_stringText known]

/-- A name in quotes is its value, put back in these quotes. -/
theorem text_of_delimited (member : t ∈ (ofTextAt origin text).tokens)
    (kind : t.kind = .identifier) {q : Quote} (isDelimiter : q ≠ .single)
    (opens : t.text.toList.head? = some q.opening) :
    t.text = String.ofList (q.write (nameValue t.text)) := by
  -- no word begins with a quote, and no two quotes open alike
  rcases text_of_identifier member kind with ⟨part, quoted⟩ | ⟨word, isWord, plain⟩
  · have same : part.quote = q := by
      rw [quoted, String.toList_ofList] at opens
      have first : part.quote.opening = q.opening := Option.some.inj opens
      cases written : part.quote <;> cases q <;> rw [written] at first <;> first
        | rfl
        | cases first
    rw [quoted, part.nameValue_text, ← same]
    rfl
  · have starts := isWord.starts
    rw [plain, String.toList_ofList] at opens
    rw [opens, Option.any_some, Piece.startsWord_opening isDelimiter] at starts
    cases starts

end TokenStream

/-- Writing a value in quotes and reading it undo each other. -/
theorem quoted_values_kept :
    (∀ marker ∈ stringMarkers, ∀ value origin,
      TokenStream.ofTextAt origin (stringText marker value) =
          ⟨[⟨.stringLiteral, stringText marker value, origin⟩,
            .endOfInput (origin.after (stringText marker value).toList)], []⟩ ∧
        stringValue (stringText marker value) = value) ∧
      ∀ origin text, ∀ t ∈ (TokenStream.ofTextAt origin text).tokens,
        (t.kind = .stringLiteral →
          ∃ marker ∈ stringMarkers, t.text = stringText marker (stringValue t.text)) ∧
        (t.kind = .identifier → ∀ q ≠ Quote.single, t.text.toList.head? = some q.opening →
          t.text = String.ofList (q.write (nameValue t.text))) := by
  constructor
  · intro marker known value origin
    exact ⟨TokenStream.ofTextAt_stringText known origin value, stringValue_stringText known value⟩
  · intro origin text t member
    constructor
    · exact TokenStream.text_of_stringLiteral member
    · intro kind q isDelimiter opens
      exact TokenStream.text_of_delimited member kind isDelimiter opens

theorem quoted_values_kept_doubled :
    stringText ['N'] "it's" = "N'it''s'" ∧ stringValue "N'it''s'" = "it's" ∧
      (∃ marker ∈ stringMarkers, "N'it''s'" = stringText marker (stringValue "N'it''s'")) ∧
      "[a]]]" = String.ofList (Quote.bracket.write (nameValue "[a]]]")) := by
  have kept := quoted_values_kept.1 ['N'] (by decide) "it's" .start
  have written : stringText ['N'] "it's" = "N'it''s'" := by decide +kernel
  have strings := quoted_values_kept.2 .start "N'it''s'"
    ⟨.stringLiteral, "N'it''s'", .start⟩ (by decide +kernel)
  have names := quoted_values_kept.2 .start "[a]]]" ⟨.identifier, "[a]]]", .start⟩
    (by decide +kernel)
  exact ⟨written, written ▸ kept.2, strings.1 rfl, names.2 rfl .bracket (by decide) (by decide)⟩

end QueryNames
