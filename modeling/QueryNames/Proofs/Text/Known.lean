import QueryNames.Proofs.Text.LineFeed

/-!
Reading texts that are known. A text is read as tokens of some sort if its pieces are the same
wherever it stands, before whatever may follow it. Main statements: words, blanks and signs are read
as themselves, texts one behind the other as the tokens of both, and a text in parentheses as its
tokens between two more.
-/

namespace QueryNames.Piece

/-! The signs and the words around a text. -/

theorem cut_leftParen (lineIsBlank : Bool) (r : List Char) :
    cut lineIsBlank '(' r = ⟨.token (.punctuation .leftParen), ['('], r⟩ := rfl

theorem cut_rightParen (lineIsBlank : Bool) (r : List Char) :
    cut lineIsBlank ')' r = ⟨.token (.punctuation .rightParen), [')'], r⟩ := rfl

theorem word_keyword {k : Keyword} {text : List Char} (lineIsBlank : Bool) (r : List Char)
    (known : Keyword.ofWord? (String.ofList text) = some k)
    (other : Text.sameAsciiCase text ['g', 'o'] = false) :
    word lineIsBlank text r = ⟨.token (.keyword k), text, r⟩ := by
  simp only [word, other, Bool.and_false, Bool.false_eq_true, if_false, known]

/-- The tokens between the parentheses are those of the text alone. -/
theorem faces_enclosed {place place' : Location} {lineIsBlank : Bool} {cs more : List Char}
    (whole : ∀ piece ∈ chain place true cs, piece.kind.isWhole = true) :
    ∃ place'', faces (chain place' lineIsBlank ('(' :: cs ++ '\n' :: ')' :: more)) =
      (.punctuation .leftParen, "(") :: faces (chain place true cs) ++
        (.punctuation .rightParen, ")") :: faces (chain place'' false more) := by
  have opened : keepsLineBlank lineIsBlank ['('] = false := by cases lineIsBlank <;> rfl
  obtain ⟨front, split, same⟩ := @chain_lineFeed place (place'.after ['(']) true false cs ')' more
    whole (fun _ => rfl) rfl
  have closed : keepsLineBlank true [')'] = false := rfl
  refine ⟨((place'.after ['(']).after (cs ++ ['\n'])).after [')'], ?_⟩
  rw [List.cons_append, chain, cut_leftParen]
  dsimp only
  rw [opened, split, chain, cut_rightParen]
  dsimp only
  rw [closed, ← same]
  simp only [faces, List.filterMap_append, List.filterMap_cons]
  rfl

theorem chain_cut {place : Location} {lineIsBlank : Bool} {c : Char} {r text rest : List Char}
    {kind : Kind} (first : cut lineIsBlank c r = ⟨kind, text, rest⟩) :
    chain place lineIsBlank (c :: r) = ⟨kind, text, place⟩ ::
      chain (place.after text) (keepsLineBlank lineIsBlank text) rest := by
  rw [chain, first]

/-- Wherever `text` stands before something in `follow`, it has no faults and tokens in `P`. -/
def Lexes (text : List Char) (follow : List Char → Prop) (P : List Token → Prop) : Prop :=
  ∀ place lineIsBlank rest, follow rest → ∃ pieces lineIsBlank',
    chain place lineIsBlank (text ++ rest) =
        pieces ++ chain (place.after text) lineIsBlank' rest ∧
      pieces.filterMap diagnostic? = [] ∧ P (pieces.filterMap token?)

namespace Lexes

variable {text text' : List Char} {follow follow' : List Char → Prop} {P Q : List Token → Prop}

theorem nil (holds : P []) : Lexes [] follow P :=
  fun _ lineIsBlank _ _ => ⟨[], lineIsBlank, rfl, rfl, holds⟩

theorem imp (lexes : Lexes text follow P) (weaker : ∀ ts, P ts → Q ts) : Lexes text follow Q := by
  intro place lineIsBlank rest follows
  obtain ⟨pieces, lineIsBlank', split, sound, holds⟩ := lexes place lineIsBlank rest follows
  exact ⟨pieces, lineIsBlank', split, sound, weaker _ holds⟩

theorem before (lexes : Lexes text follow P) (fewer : ∀ rest, follow' rest → follow rest) :
    Lexes text follow' P :=
  fun place lineIsBlank rest follows => lexes place lineIsBlank rest (fewer rest follows)

theorem append (lexes : Lexes text follow P) (lexes' : Lexes text' follow' Q)
    (meets : ∀ rest, follow' rest → follow (text' ++ rest)) :
    Lexes (text ++ text') follow' fun ts => ∃ us vs, ts = us ++ vs ∧ P us ∧ Q vs := by
  intro place lineIsBlank rest follows
  obtain ⟨front, between, split, sound, holds⟩ :=
    lexes place lineIsBlank (text' ++ rest) (meets rest follows)
  obtain ⟨back, lineIsBlank', split', sound', holds'⟩ :=
    lexes' (place.after text) between rest follows
  refine ⟨front ++ back, lineIsBlank', ?_, ?_, _, _, List.filterMap_append, holds, holds'⟩
  · rw [List.append_assoc, split, split', Location.after_append, List.append_assoc]
  · rw [List.filterMap_append, sound, sound', List.append_nil]

/-- A single token. -/
theorem token {c : Char} {r : List Char} {kind : TokenKind}
    (first : ∀ lineIsBlank rest, follow rest →
      cut lineIsBlank c (r ++ rest) = ⟨.token kind, c :: r, rest⟩) :
    Lexes (c :: r) follow fun ts =>
      ∃ place, ts = [⟨kind, String.ofList (c :: r), place⟩] := by
  intro place lineIsBlank rest follows
  exact ⟨[⟨.token kind, c :: r, place⟩], _, chain_cut (first lineIsBlank rest follows), rfl, place,
    rfl⟩

/-- A whole text. -/
theorem ofText {text : String} (lexes : Lexes text.toList follow P) (ends : follow []) :
    ∃ ts stop, TokenStream.ofText text = ⟨ts ++ [stop], []⟩ ∧ stop.kind = .endOfInput ∧ P ts := by
  obtain ⟨pieces, lineIsBlank, split, sound, holds⟩ := lexes .start true [] ends
  rw [List.append_nil, chain, List.append_nil] at split
  refine ⟨pieces.filterMap token?, .endOfInput (.after .start text.toList), ?_, rfl, holds⟩
  rw [TokenStream.ofText, TokenStream.ofTextAt, split, sound]

end Lexes

/-! Blanks, signs and words. -/

/-- No blank stands first. -/
def BeginsInk (cs : List Char) : Prop := ∃ c r, cs = c :: r ∧ Text.isBlank c = false

theorem lexes_blank : Lexes [' '] BeginsInk fun ts => ts = [] := by
  rintro place lineIsBlank _ ⟨c, r, rfl, ink⟩
  have first : cut lineIsBlank ' ' (c :: r) = ⟨.blank, [' '], c :: r⟩ := by
    have blank : Text.isBlank ' ' = true := rfl
    rw [cut, blank?, if_pos blank]
    simp [Cut.run, ink]
  exact ⟨[⟨.blank, [' '], place⟩], _, chain_cut first, rfl, rfl⟩

/-- What cannot go on a word stands first. -/
def EndsWord (cs : List Char) : Prop := cs.head?.any continuesWord = false

theorem endsWord_blank (r : List Char) : EndsWord (' ' :: r) :=
  (by decide +kernel : continuesWord ' ' = false)

/-- A run goes up to what stops it. -/
theorem span_append {p : Char → Bool} {run rest : List Char} (within : ∀ c ∈ run, p c = true)
    (stops : rest.head?.any p = false) :
    (run ++ rest).takeWhile p = run ∧ (run ++ rest).dropWhile p = rest := by
  rw [List.takeWhile_append_of_pos within, List.dropWhile_append_of_pos within]
  cases rest with
  | nil => simp
  | cons d rest =>
      have stops : p d = false := stops
      simp [stops]

/-- A keyword is read as itself. -/
theorem lexes_keyword {k : Keyword} {c : Char} {r : List Char}
    (isWord : ∀ lineIsBlank r', cut lineIsBlank c r' =
      word lineIsBlank (c :: r'.takeWhile continuesWord) (r'.dropWhile continuesWord))
    (continues : r.all continuesWord = true)
    (known : Keyword.ofWord? (String.ofList (c :: r)) = some k)
    (noSeparator : Text.sameAsciiCase (c :: r) ['g', 'o'] = false) :
    Lexes (c :: r) EndsWord fun ts => ∃ t, ts = [t] ∧ t.kind = .keyword k := by
  apply Lexes.imp (P := fun ts => ∃ place, ts = [⟨.keyword k, String.ofList (c :: r), place⟩])
  · apply Lexes.token
    intro lineIsBlank rest ends
    obtain ⟨taken, dropped⟩ := span_append (List.all_eq_true.1 continues) ends
    rw [isWord, taken, dropped, word_keyword _ _ known noSeparator]
  · rintro ts ⟨place, rfl⟩
    exact ⟨_, rfl, rfl⟩

end QueryNames.Piece
