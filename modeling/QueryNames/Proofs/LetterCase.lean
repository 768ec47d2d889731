import QueryNames.Proofs.Rendition.Outline
import QueryNames.Proofs.Rendition.Piece
import QueryNames.Proofs.Rendition.Script

/-!
Letter case. Main statement: texts that differ in the case of their letters only are read as trees
that differ so, with the same errors but for the letters quoted in them.
-/

namespace QueryNames

namespace Rendition

/-- All letters small, and each place kept. -/
def lowercase : Rendition where
  letter := Char.toLower
  place := id
  toLower_letter := Text.toLower_blind (p := Char.toLower) (by decide)

/-! Messages quote characters and tokens, and are fixed otherwise. -/

section Message

variable (f : Rendition)

theorem toLower_append {a b c d : String} (front : a.toLower = b.toLower)
    (behind : c.toLower = d.toLower) : (a ++ c).toLower = (b ++ d).toLower := by
  have apart (a c : String) : (a ++ c).toLower = a.toLower ++ c.toLower :=
    render_text_append lowercase a c
  rw [apart, apart, front, behind]

theorem toLower_render (text : String) : (render f text).toLower = text.toLower := by
  apply String.toList_injective
  show ((text.map f.letter).map Char.toLower).toList = (text.map Char.toLower).toList
  simp [f.toLower_letter]

theorem toLower_letter_toString (c : Char) :
    (f.letter c).toString.toLower = c.toString.toLower := by
  have letter : (f.letter c).toString = render f c.toString := by
    apply String.toList_injective
    simp
  rw [letter, toLower_render]

theorem toLower_description (found : Found) :
    (Found.description (render f found)).toLower = (Found.description found).toLower := by
  cases found with
  | none => rfl
  | some text => exact toLower_append (toLower_append rfl (toLower_render f text)) rfl

theorem toLower_message (d : Diagnostic) : (render f d).message.toLower = d.message.toLower := by
  obtain ⟨cause, place⟩ := d
  cases cause with
  | lexical fault =>
      cases fault with
      | unclosedIdentifier close =>
          exact toLower_append (toLower_append rfl (toLower_letter_toString f close)) rfl
      | strayCharacter c =>
          exact toLower_append (toLower_append rfl (toLower_letter_toString f c)) rfl
      | _ => rfl
  | grammatical complaint =>
      cases complaint with
      | missing expected found => exact toLower_append rfl (toLower_description f found)
      | surplus found expected =>
          exact toLower_append
            (toLower_append (toLower_append rfl (toLower_description f found)) rfl) rfl
      | unsupportedStatement found =>
          exact toLower_append (toLower_append rfl (toLower_description f found)) rfl
      | nestingTooDeep => rfl

end Message

end Rendition

namespace ParseResult

open Rendition

theorem ofText_render {f : Rendition} (kept : ∀ place, f.place place = place) (text : String) :
    ofText (render f text) = render f (ofText text) := by
  have read := TokenStream.ofTextAt_render kept .start text
  have closed : Grammar.Closed (TokenStream.ofTextAt .start text).tokens :=
    Grammar.closed_concat _ rfl
  unfold ofText
  exact (congrArg ofTokens read).trans (ofTokens_render kept closed)

/-- Texts that differ in the case of letters only are read as trees that differ so, with the same
errors in the same places, and have the same names but for case. -/
theorem ofText_letterCase {a b : String} (same : a.toLower = b.toLower) :
    let left := ofText a
    let right := ofText b
    render lowercase left.script = render lowercase right.script ∧
      left.errors.map (fun d => (d.isGrammatical, d.location, d.message.toLower)) =
        right.errors.map (fun d => (d.isGrammatical, d.location, d.message.toLower)) ∧
      (tableNames a).map String.toLower = (tableNames b).map String.toLower ∧
      (fieldNames a).map String.toLower = (fieldNames b).map String.toLower ∧
      left.script.selectsWildcard = right.script.selectsWildcard := by
  intro left right
  have small : render lowercase left = render lowercase right := by
    rw [← ofText_render (fun _ => rfl), ← ofText_render (fun _ => rfl)]
    exact congrArg ofText same
  have script : render lowercase left.script = render lowercase right.script :=
    congrArg ParseResult.script small
  have marks : render lowercase left.script.marks = render lowercase right.script.marks := by
    rw [← Script.marks_render, script, Script.marks_render]
  have told (errors : List Diagnostic) :
      errors.map (fun d => (d.isGrammatical, d.location, d.message.toLower)) =
        (render lowercase errors).map fun d =>
          (d.isGrammatical, d.location, d.message.toLower) := by
    rw [render_list, List.map_map]
    refine List.map_congr_left fun d _ => ?_
    have grammatical : (render lowercase d).isGrammatical = d.isGrammatical := by
      obtain ⟨cause, place⟩ := d
      cases cause <;> rfl
    show _ = ((render lowercase d).isGrammatical, d.location, (render lowercase d).message.toLower)
    rw [grammatical, toLower_message]
  refine ⟨script, ?_, ?_, ?_, ?_⟩
  · rw [told left.errors, told right.errors]
    exact congrArg (fun result => result.errors.map fun d =>
      (d.isGrammatical, d.location, d.message.toLower)) small
  · have tables := congrArg Mark.tables marks
    rw [Mark.tables_render, Mark.tables_render, ← Script.tableNames_eq_marks,
      ← Script.tableNames_eq_marks] at tables
    exact tables
  · have fields := congrArg Mark.fields marks
    rw [Mark.fields_render, Mark.fields_render, ← Script.fieldNames_eq_marks,
      ← Script.fieldNames_eq_marks] at fields
    exact fields
  · have stars := congrArg Mark.stars marks
    rwa [Mark.stars_render, Mark.stars_render, ← Script.selectsWildcard_eq_marks,
      ← Script.selectsWildcard_eq_marks] at stars

/-- Keywords, names, a hint, a number and a national string in two cases, with a word too many. -/
theorem ofText_letterCase_words :
    let a :=
      "SELECT TOP 0X1F o.Name, SUM(1E3) FROM dbo.Orders AS o WITH (NOLOCK) JOIN T ON N'x' = x Y"
    let b :=
      "select top 0x1f O.nAME, Sum(1e3) From DBO.orders as O With (nolock) join t on n'X' = X y"
    let left := ofText a
    let right := ofText b
    (a.toLower = b.toLower ∧
      tableNames a = ["Orders", "T"] ∧ tableNames b = ["orders", "t"] ∧
      fieldNames a = ["o", "Name", "x"] ∧ fieldNames b = ["O", "nAME", "X"] ∧
      left.errors.map (·.location.offset) = [87] ∧ right.errors.map (·.location.offset) = [87]) ∧
      render lowercase left.script = render lowercase right.script ∧
      left.errors.map (fun d => (d.isGrammatical, d.location, d.message.toLower)) =
        right.errors.map (fun d => (d.isGrammatical, d.location, d.message.toLower)) ∧
      (tableNames a).map String.toLower = (tableNames b).map String.toLower ∧
      (fieldNames a).map String.toLower = (fieldNames b).map String.toLower ∧
      left.script.selectsWildcard = right.script.selectsWildcard := by
  intro a b left right
  have same : a.toLower = b.toLower := by
    apply String.toList_injective
    show (a.map Char.toLower).toList = (b.map Char.toLower).toList
    rw [String.toList_map, String.toList_map]
    decide +kernel
  refine ⟨⟨same, ?_⟩, ofText_letterCase same⟩
  decide +kernel

end ParseResult

end QueryNames
