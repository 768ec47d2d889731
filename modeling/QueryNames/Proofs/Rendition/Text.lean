import QueryNames.Grammar.Query
import QueryNames.Proofs.Rendition.Tree

/-!
What does not depend on the case of letters: the classes of characters, quotes, and all that the
grammar asks of a token.
-/

namespace QueryNames

namespace Rendition

variable (f : Rendition)

theorem letter_blind {p : Char → α}
    (same : (Text.capitals.map fun c => p c.toLower) = Text.capitals.map p) (c : Char) :
    p (f.letter c) = p c := by
  rw [← Text.toLower_blind same, f.toLower_letter, Text.toLower_blind same]

@[simp] theorem isBlank_letter (c : Char) : Text.isBlank (f.letter c) = Text.isBlank c :=
  f.letter_blind (by decide) c

@[simp] theorem isDigit_letter (c : Char) : (f.letter c).isDigit = c.isDigit :=
  f.letter_blind (p := Char.isDigit) (by decide) c

@[simp] theorem isHexDigit_letter (c : Char) : Text.isHexDigit (f.letter c) = Text.isHexDigit c :=
  f.letter_blind (by decide) c

@[simp] theorem isAlphanumeric_letter (c : Char) :
    Text.isAlphanumeric (f.letter c) = Text.isAlphanumeric c :=
  f.letter_blind (by decide) c

@[simp] theorem toUpper_letter (c : Char) : (f.letter c).toUpper = c.toUpper :=
  f.letter_blind (p := Char.toUpper) (by decide) c

@[simp] theorem utf8Size_letter (c : Char) : (f.letter c).utf8Size = c.utf8Size :=
  f.letter_blind (p := Char.utf8Size) (by decide) c

/-- A character that is no letter stays as it is, and nothing becomes one. -/
theorem letter_eq {q : Char} (other : q ∉ Text.letters) (c : Char) :
    f.letter c = q ↔ c = q := by
  have same : ∀ c ∈ Text.capitals, (c.toLower == q) = (c == q) := by
    intro c capital
    rw [Text.letters, List.mem_append, not_or] at other
    have small : c.toLower ≠ q := fun is => other.1 (List.mem_map.2 ⟨c, capital, is⟩)
    have large : c ≠ q := fun is => other.2 (is ▸ capital)
    rw [beq_eq_false_iff_ne.2 small, beq_eq_false_iff_ne.2 large]
  have blind : (f.letter c == q) = (c == q) :=
    f.letter_blind (p := (· == q)) (List.map_congr_left same) c
  rw [← beq_iff_eq, blind, beq_iff_eq]

/-- A letter stays one of the two that differ in case only, and nothing else becomes one of them. -/
theorem letter_pair {large small : Char}
    (pair : (Text.capitals.map fun c => c.toLower == large || c.toLower == small) =
      Text.capitals.map fun c => c == large || c == small) (c : Char) :
    (f.letter c = large ∨ f.letter c = small) ↔ (c = large ∨ c = small) := by
  have blind : (f.letter c == large || f.letter c == small) = (c == large || c == small) :=
    f.letter_blind (p := fun c => c == large || c == small) pair c
  simpa using congrArg (· = true) blind

end Rendition

/-! Texts. -/

section Texts

variable (f : Rendition)

@[simp] theorem toList_render (text : String) :
    (render f text).toList = text.toList.map f.letter := String.toList_map

@[simp] theorem render_ofList (text : List Char) :
    render f (String.ofList text) = String.ofList (text.map f.letter) := by
  apply String.toList_injective
  simp

@[simp] theorem render_text_append (a b : String) :
    render f (a ++ b) = render f a ++ render f b := by
  apply String.toList_injective
  simp

theorem render_signs {text : String}
    (signs : text.toList.all (fun c => !Text.letters.contains c) = true) :
    render f text = text := by
  have stays : ∀ c ∈ text.toList, f.letter c = c := by
    intro c member
    have sign : c ∉ Text.letters := by simpa using List.all_eq_true.1 signs c member
    exact (f.letter_eq sign c).2 rfl
  apply String.toList_injective
  rw [toList_render, List.map_congr_left stays, List.map_id']

theorem render_join (texts : List String) :
    render f (String.join texts) = String.join (render f texts) := by
  apply String.toList_injective
  rw [toList_render, String.toList_join, String.toList_join, List.map_flatMap, render_list,
    List.flatMap_map]
  simp

theorem trim_render (text : List Char) :
    Text.trim (text.map f.letter) = (Text.trim text).map f.letter := by
  have start (text : List Char) :
      Text.trimStart (text.map f.letter) = (Text.trimStart text).map f.letter := by
    rw [Text.trimStart, List.dropWhile_map]
    have blank : Text.isBlank ∘ f.letter = Text.isBlank := funext f.isBlank_letter
    rw [blank]
    rfl
  rw [Text.trim, start, Text.trimEnd, ← List.map_reverse, start, ← List.map_reverse]
  rfl

section Quoted

variable {opening close q : Char}

theorem halve_render (isOther : ∀ c, f.letter c = q ↔ c = q) (text : List Char) :
    Text.halve q (text.map f.letter) = (Text.halve q text).map f.letter := by
  fun_induction Text.halve q text with
  | case1 a b r both ih =>
      obtain ⟨rfl, rfl⟩ := both
      have stays := (isOther b).2 rfl
      simp only [List.map_cons, stays, Text.halve_pair, ih]
  | case2 a b r notBoth ih =>
      have other : ¬(f.letter a = q ∧ f.letter b = q) := by rwa [isOther, isOther]
      rw [List.map_cons, List.map_cons, Text.halve, if_neg other, ← List.map_cons, ih]
      rfl
  | case3 text short =>
      rcases text with _ | ⟨a, _ | ⟨b, r⟩⟩
      · rfl
      · rfl
      · exact absurd rfl (short a b r)

theorem between?_render (opens : ∀ c, f.letter c = opening ↔ c = opening)
    (closes : ∀ c, f.letter c = close ↔ c = close) (text : List Char) :
    Text.between? opening close (text.map f.letter) =
      (Text.between? opening close text).map (List.map f.letter) := by
  cases text with
  | nil => rfl
  | cons c r =>
      have last : (r.map f.letter).getLast? = some close ↔ r.getLast? = some close := by
        rw [List.getLast?_map, Option.map_eq_some_iff]
        constructor
        · rintro ⟨d, found, is⟩
          rwa [(closes d).1 is] at found
        · intro found
          exact ⟨close, found, (closes close).2 rfl⟩
      simp only [List.map_cons, Text.between?, opens, last]
      split
      · rw [Option.map_some, List.map_dropLast]
      · rfl

end Quoted

theorem Quote.letter_opening (quote : Quote) (c : Char) :
    f.letter c = quote.opening ↔ c = quote.opening := by
  apply f.letter_eq
  cases quote <;> decide

theorem Quote.letter_closing (quote : Quote) (c : Char) :
    f.letter c = quote.closing ↔ c = quote.closing := by
  apply f.letter_eq
  cases quote <;> decide

@[simp] theorem Quote.ofName?_render (text : List Char) :
    Quote.ofName? (text.map f.letter) = Quote.ofName? text := by
  simp only [Quote.ofName?, between?_render f (Quote.letter_opening f _) (Quote.letter_closing f _),
    Option.isSome_map]

theorem Quote.undo_render (quote : Quote) (text : List Char) :
    quote.undo (text.map f.letter) = (quote.undo text).map f.letter := by
  unfold Quote.undo
  rw [between?_render f (Quote.letter_opening f _) (Quote.letter_closing f _)]
  cases Text.between? quote.opening quote.closing text with
  | none => rfl
  | some inner => exact halve_render f (Quote.letter_closing f _) inner

theorem nameValue_render (text : String) :
    nameValue (render f text) = render f (nameValue text) := by
  unfold nameValue
  simp only [toList_render, trim_render, Quote.ofName?_render]
  cases Quote.ofName? (Text.trim text.toList) with
  | none => simp
  | some quote => simp [Quote.undo_render]

theorem stringValue_render (text : String) :
    stringValue (render f text) = render f (stringValue text) := by
  have quote : ∀ c, f.letter c = '\'' ↔ c = '\'' := f.letter_eq (by decide)
  have marker (c : Char) : (f.letter c = 'N' ∨ f.letter c = 'n') ↔ (c = 'N' ∨ c = 'n') :=
    f.letter_pair (by decide) c
  have body (text : List Char) :
      Text.halve '\'' ((Text.between? '\'' '\'' (text.map f.letter)).getD (text.map f.letter)) =
        (Text.halve '\'' ((Text.between? '\'' '\'' text).getD text)).map f.letter := by
    rw [between?_render f quote quote, ← halve_render f quote]
    cases Text.between? '\'' '\'' text <;> rfl
  simp only [stringValue, toList_render, render_ofList]
  cases text.toList with
  | nil => exact congrArg String.ofList (body [])
  | cons c r =>
      by_cases marked : c = 'N' ∨ c = 'n'
      · rcases (marker c).2 marked with is | is <;> rcases marked with rfl | rfl <;>
          simp only [List.map_cons, is, body]
      · have kept := mt (marker c).1 marked
        rw [not_or] at marked kept
        have whole := body (c :: r)
        rw [List.map_cons] at whole ⊢
        split
        · exact absurd (List.cons.inj ‹_›).1 kept.1
        · exact absurd (List.cons.inj ‹_›).1 kept.2
        · split
          · exact absurd (List.cons.inj ‹_›).1 marked.1
          · exact absurd (List.cons.inj ‹_›).1 marked.2
          · exact congrArg String.ofList whole

theorem render_intercalate {separator : String} (fixed : render f separator = separator)
    (texts : List String) :
    render f (separator.intercalate texts) = separator.intercalate (render f texts) := by
  induction texts with
  | nil => simp [render]
  | cons first texts ih =>
      cases texts with
      | nil => simp
      | cons second texts =>
          rw [render_cons] at ih
          rw [render_cons, render_cons, String.intercalate_cons_cons, String.intercalate_cons_cons,
            render_text_append, render_text_append, fixed, ih]

theorem QualifiedName.values_render (name : QualifiedName) :
    (render f name).values = render f name.values := by
  simp only [values, parts, render, List.map_cons, List.map_map]
  rfl

end Texts

/-! Tokens. -/

section Tokens

variable (f : Rendition) (t : Token)

@[simp] theorem Token.kind_render : (render f t).kind = t.kind := rfl

theorem Token.text_render : (render f t).text = render f t.text := rfl

theorem Token.render_endOfInput (place : Location) :
    render f (endOfInput place) = endOfInput (f.place place) := by
  have noText : render f "" = "" := render_signs f (by decide)
  exact congrArg (Token.mk .endOfInput · (f.place place)) noText

@[simp] theorem Token.isEnd_render : (render f t).isEnd = t.isEnd := rfl

@[simp] theorem Token.isKeyword_render (k : Keyword) :
    (render f t).isKeyword k = t.isKeyword k := rfl

@[simp] theorem Token.isPunctuation_render (p : Punctuation) :
    (render f t).isPunctuation p = t.isPunctuation p := rfl

@[simp] theorem Token.isWord_render (word : String) : (render f t).isWord word = t.isWord word := by
  have lower : Char.toLower ∘ f.letter = Char.toLower := funext f.toLower_letter
  simp only [isWord, kind_render, Text.sameAsciiCase]
  rw [text_render, toList_render, List.map_map, lower]

@[simp] theorem Token.isPlainName_render : (render f t).isPlainName = t.isPlainName := by
  have mark (c : Char) : (f.letter c == '_') = (c == '_') :=
    f.letter_blind (p := (· == '_')) (by decide) c
  simp only [isPlainName, kind_render]
  rw [text_render, toList_render, List.all_map]
  simp [Function.comp_def, mark]

@[simp] theorem Token.found_render : (render f t).found = render f t.found := by
  unfold Token.found
  rw [isEnd_render]
  split <;> rfl

theorem Identifier.ofToken_render : ofToken (render f t) = render f (ofToken t) := by
  simp only [ofToken, Token.text_render, nameValue_render, toList_render, Quote.ofName?_render]
  rfl

namespace Grammar

@[simp] theorem endsItem_render : endsItem (render f t) = endsItem t := rfl

@[simp] theorem endsOrderItem_render : endsOrderItem (render f t) = endsOrderItem t := by
  simp [endsOrderItem]

@[simp] theorem Parser.isJoinHint_render : isJoinHint (render f t) = isJoinHint t := by
  simp [isJoinHint]

@[simp] theorem Parser.joinKind?_render (next : Token) :
    joinKind? (render f t) (render f next) = joinKind? t next := by
  simp [joinKind?]

end Grammar

end Tokens

end QueryNames
