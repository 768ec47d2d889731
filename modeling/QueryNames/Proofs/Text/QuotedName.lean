import QueryNames.Proofs.Text.Known
import QueryNames.Proofs.Written.Name

/-!
Names in quotes. Main statements: what is written in quotes has the value that it was written for,
and a dotted name whose parts are written in quotes is read as those parts, whatever they hold.
-/

namespace QueryNames

namespace Text

/-- Nothing is cut off a text between two characters that are no blanks. -/
theorem trim_inked {c d : Char} {text : List Char} (first : isBlank c = false)
    (last : isBlank d = false) : trim (c :: text ++ [d]) = c :: text ++ [d] := by
  simp [trim, trimStart, trimEnd, first, last]

end Text

/-- A part of a name, and the quotes that it is written in. -/
structure QuotedPart where
  quote : Quote
  value : String
  isDelimiter : quote ≠ .single
  notEmpty : value ≠ ""

namespace QuotedPart

def text (part : QuotedPart) : List Char :=
  part.quote.opening :: Text.double part.quote.closing part.value.toList ++ [part.quote.closing]

variable (part : QuotedPart)

theorem between?_text :
    Text.between? part.quote.opening part.quote.closing part.text =
      some (Text.double part.quote.closing part.value.toList) :=
  Text.between?_append _ _ _

theorem ofName?_text : Quote.ofName? part.text = some part.quote := by
  have inside := part.between?_text
  obtain ⟨quote, value, isDelimiter, notEmpty⟩ := part
  cases quote with
  | bracket => simp [Quote.ofName?, inside]
  | double =>
      rw [Quote.ofName?, List.find?_cons_of_neg (by rintro ⟨⟩), List.find?_cons_of_pos]
      rw [inside]
      rfl
  | single => contradiction

theorem nameValue_text : nameValue (String.ofList part.text) = part.value := by
  have inked : Text.trim part.text = part.text := by
    apply Text.trim_inked
    · cases part.quote <;> rfl
    · cases part.quote <;> rfl
  rw [nameValue, String.toList_ofList, inked]
  simp only [part.ofName?_text, Quote.undo, part.between?_text, Text.halve_double]
  exact String.ofList_toList

end QuotedPart

namespace Piece

variable {close : Char}

theorem splitQuoted_pair (r : List Char) : splitQuoted close (close :: close :: r) =
    (splitQuoted close r).map fun (text, rest) => (close :: close :: text, rest) := by
  simp [splitQuoted]

theorem splitQuoted_other {c : Char} (other : c ≠ close) (r : List Char) :
    splitQuoted close (c :: r) =
      (splitQuoted close r).map fun (text, rest) => (c :: text, rest) := by
  cases r <;> simp [splitQuoted, other]

/-- The first quote that is not doubled is the one that stands behind the doubled text. -/
theorem splitQuoted_double (text : List Char) {rest : List Char}
    (single : rest.head? ≠ some close) :
    splitQuoted close (Text.double close text ++ close :: rest) =
      some (Text.double close text ++ [close], rest) := by
  induction text with
  | nil =>
      cases rest with
      | nil => simp [Text.double, splitQuoted]
      | cons d rest =>
          have other : d ≠ close := fun same => single (congrArg some same)
          simp [Text.double, splitQuoted, other]
  | cons c text ih =>
      by_cases same : c = close
      · have doubled :
            Text.double close (c :: text) = close :: close :: Text.double close text := by
          simp [Text.double, same]
        rw [doubled, List.cons_append, List.cons_append, splitQuoted_pair, ih]
        rfl
      · have kept : Text.double close (c :: text) = c :: Text.double close text := by
          simp [Text.double, same]
        rw [kept, List.cons_append, splitQuoted_other same, ih]
        rfl

theorem delimited_double {opening : Char} {text rest : List Char} (notEmpty : text ≠ [])
    (single : rest.head? ≠ some close) :
    delimited opening close (Text.double close text ++ close :: rest) =
      ⟨.token .identifier, opening :: (Text.double close text ++ [close]), rest⟩ := by
  have inside : Text.double close text ++ [close] ≠ [close] := by
    cases text with
    | nil => contradiction
    | cons c text => by_cases same : c = close <;> simp [Text.double, same]
  simp only [delimited, splitQuoted_double text single, if_neg inside]

/-- A quote opens a delimited name, whatever stands behind it. -/
theorem cut_quote {q : Quote} (isDelimiter : q ≠ .single) (lineIsBlank : Bool) (r : List Char) :
    cut lineIsBlank q.opening r = delimited q.opening q.closing r := by
  cases q with
  | bracket => rfl
  | double => rfl
  | single => contradiction

/-- No quote stands first. -/
def EndsQuoted (cs : List Char) : Prop := ∀ q : Quote, cs.head? ≠ some q.closing

theorem endsQuoted_blank (r : List Char) : EndsQuoted (' ' :: r) := by
  rintro q same
  cases q <;> cases same

theorem beginsInk_quote (q : Quote) (r : List Char) : BeginsInk (q.opening :: r) :=
  ⟨_, r, rfl, by cases q <;> rfl⟩

/-- A part in quotes is read as one delimited name with its value. -/
theorem lexes_quotedPart (part : QuotedPart) :
    Lexes part.text EndsQuoted fun ts =>
      ∃ t, ts = [t] ∧ t.isDelimited = true ∧ (Identifier.ofToken t).value = part.value := by
  have one : Lexes part.text EndsQuoted fun ts =>
      ∃ place, ts = [⟨.identifier, String.ofList part.text, place⟩] := by
    apply Lexes.token
    intro lineIsBlank rest ends
    have notEmpty : part.value.toList ≠ [] := by simpa using part.notEmpty
    rw [cut_quote part.isDelimiter, List.append_eq, List.append_assoc]
    exact delimited_double notEmpty (ends part.quote)
  apply one.imp
  rintro ts ⟨place, rfl⟩
  refine ⟨_, rfl, ?_, part.nameValue_text⟩
  simp [Token.isDelimited, part.ofName?_text]

/-! Dotted names. -/

theorem lexes_period : Lexes ['.'] (fun cs => ∃ q : Quote, cs.head? = some q.opening) fun ts =>
    ∃ t, ts = [t] ∧ t.kind = .punctuation .period := by
  have one : Lexes ['.'] (fun cs => ∃ q : Quote, cs.head? = some q.opening) fun ts =>
      ∃ place, ts = [⟨.punctuation .period, ".", place⟩] := by
    apply Lexes.token
    rintro lineIsBlank rest ⟨q, opens⟩
    cases rest with
    | nil => cases opens
    | cons c rest =>
        obtain rfl := Option.some.inj opens
        cases q <;> rfl
  apply one.imp
  rintro ts ⟨place, rfl⟩
  exact ⟨_, rfl, rfl⟩

end Piece

/-- A dotted name with its parts in quotes. -/
structure QuotedName where
  first : QuotedPart
  others : List QuotedPart

namespace QuotedName

def parts (name : QuotedName) : List QuotedPart := name.first :: name.others

def values (name : QuotedName) : List String := name.parts.map (·.value)

def text (name : QuotedName) : List Char :=
  name.first.text ++ name.others.flatMap fun part => '.' :: part.text

end QuotedName

namespace Piece

open Grammar

theorem endsQuoted_parts (parts : List QuotedPart) {rest : List Char} (ends : EndsQuoted rest) :
    EndsQuoted ((parts.flatMap fun part => '.' :: part.text) ++ rest) := by
  cases parts with
  | nil => exact ends
  | cons part parts =>
      rintro q same
      cases q <;> cases same

theorem lexes_quotedParts (parts : List QuotedPart) :
    Lexes (parts.flatMap fun part => '.' :: part.text) EndsQuoted fun ts =>
      ∃ names, WrittenParts ts names ∧ names.map (·.value) = parts.map (·.value) := by
  induction parts with
  | nil => exact .nil ⟨[], .nil, rfl⟩
  | cons part parts ih =>
      have all := (lexes_period.append (lexes_quotedPart part) fun _ _ =>
        ⟨part.quote, rfl⟩).append ih fun _ => endsQuoted_parts parts
      apply all.imp
      rintro _ ⟨_, us, rfl, ⟨_, _, rfl, ⟨period, rfl, isPeriod⟩, t, rfl, delimited, value⟩, names,
        written, values⟩
      exact ⟨_, .part isPeriod delimited written, congr (congrArg List.cons value) values⟩

/-- A dotted name in quotes is read as a name with the values of its parts. -/
theorem lexes_quotedName (name : QuotedName) :
    Lexes name.text EndsQuoted fun ts => ∃ n, WrittenName ts n ∧ n.values = name.values := by
  have all := (lexes_quotedPart name.first).append (lexes_quotedParts name.others) fun _ =>
    endsQuoted_parts name.others
  apply all.imp
  rintro _ ⟨_, us, rfl, ⟨t, rfl, delimited, value⟩, names, written, values⟩
  exact ⟨_, .parts delimited written, congr (congrArg List.cons value) values⟩

end Piece

end QueryNames
