import QueryNames.Proofs.Text.DottedName
import QueryNames.Proofs.Text.Identifier

/-!
The two readings of names: part by part, as a catalog has them, and one identifier at a time, as a
query has them. Main statement: a dotted name in quotes splits into the values of its parts, and an
identifier of a query into its own value alone.
-/

namespace QueryNames

/-- The parts of a word are the word: no dot, no quote and no blank goes on a word. -/
theorem splitParts_word {text : List Char} (goesOn : ∀ c ∈ text, Piece.continuesWord c = true) :
    splitParts none text = [text] := by
  induction text with
  | nil => rfl
  | cons c text ih =>
      obtain ⟨inWord, others⟩ := List.forall_mem_cons.1 goesOn
      have differs {d : Char} (ends : Piece.continuesWord d = false) : c ≠ d := by
        rintro rfl
        rw [inWord] at ends
        cases ends
      have bracket : c ≠ '[' := differs (by decide +kernel)
      have double : c ≠ '"' := differs (by decide +kernel)
      have period : c ≠ '.' := differs (by decide +kernel)
      have ink : Text.isBlank c = false := Piece.isBlank_of_continuesWord inWord
      rw [splitParts, if_neg bracket, if_neg double, if_neg period, ink, ih others]
      rfl

theorem dottedParts_quotedPart (part : QuotedPart) :
    dottedParts (String.ofList part.text) = [part.value] := by
  have inside : splitParts none (part.text ++ []) =
      part.value.toList.foldr extendFirst (splitParts none []) :=
    splitParts_write part.isDelimiter part.value (by simp)
  have whole : splitParts none part.text = [part.value.toList] := by
    rw [← List.append_nil part.text]
    exact inside.trans (foldr_extendFirst _ _ _ |>.trans (by rw [List.append_nil]))
  rw [dottedParts, String.toList_ofList, whole, List.map_singleton, String.ofList_toList]

theorem TokenStream.dottedParts_of_identifier {origin : Location} {text : String} {t : Token}
    (member : t ∈ (ofTextAt origin text).tokens) (kind : t.kind = .identifier) :
    dottedParts t.text = [nameValue t.text] := by
  rcases text_of_identifier member kind with ⟨part, quoted⟩ | ⟨word, isWord, plain⟩
  · rw [quoted, dottedParts_quotedPart, part.nameValue_text]
  · rw [plain, Piece.nameValue_of_isWord isWord, dottedParts, String.toList_ofList,
      splitParts_word isWord.goesOn, List.map_singleton]

/-- The two readings agree. -/
theorem dottedParts_agree :
    (∀ parts : List (Quote × String), parts ≠ [] → (∀ part ∈ parts, part.1 ≠ .single) →
      dottedParts (dottedName parts) = parts.map (·.2)) ∧
    ∀ origin text, ∀ t ∈ (TokenStream.ofTextAt origin text).tokens, t.kind = .identifier →
      dottedParts t.text = [nameValue t.text] := by
  constructor
  · intro parts nonempty delimit
    exact dottedParts_dottedName nonempty delimit
  · intro origin text t member kind
    exact TokenStream.dottedParts_of_identifier member kind

theorem dottedParts_agree_brackets :
    dottedName [(.bracket, "a]"), (.double, ""), (.bracket, ". b")] = "[a]]].\"\".[. b]" ∧
      dottedParts "[a]]].\"\".[. b]" = ["a]", "", ". b"] ∧
      dottedParts "[. b]]]" = [nameValue "[. b]]]"] := by
  have written : dottedName [(.bracket, "a]"), (.double, ""), (.bracket, ". b")] =
      "[a]]].\"\".[. b]" := by decide +kernel
  have split := dottedParts_agree.1 [(.bracket, "a]"), (.double, ""), (.bracket, ". b")]
    (by decide) (by decide)
  have alone := dottedParts_agree.2 .start "[. b]]]" ⟨.identifier, "[. b]]]", .start⟩
    (by decide +kernel) rfl
  exact ⟨written, written ▸ split, alone⟩

end QueryNames
