import QueryNames.Name
import QueryNames.Proofs.Text.LineFeed

/-!
What the kind of a piece says of its text. Main statement: what is no token is white space, a
comment up to the end of its line, or a block comment that holds whole block comments only; and no
piece is an end of input.
-/

namespace QueryNames.Piece

/-- The text goes up to the end of a block comment inside of which `depth` more are open. -/
inductive ClosesComment : Nat → List Char → Prop
  | ends : ClosesComment 0 ['*', '/']
  | leaves {depth : Nat} {text : List Char} (inner : ClosesComment depth text) :
      ClosesComment (depth + 1) ('*' :: '/' :: text)
  | enters {depth : Nat} {text : List Char} (inner : ClosesComment (depth + 1) text) :
      ClosesComment depth ('/' :: '*' :: text)
  | goesOn {depth : Nat} {c : Char} {text : List Char} (noEntry : ¬ ['/', '*'] <+: c :: text)
      (noEnd : ¬ ['*', '/'] <+: c :: text) (inner : ClosesComment depth text) :
      ClosesComment depth (c :: text)

theorem ClosesComment.ne_nil {depth : Nat} {text : List Char}
    (closes : ClosesComment depth text) : text ≠ [] := by
  cases closes <;> nofun

theorem prefix_pair {a b c d : Char} {text : List Char} (first : c = a) (second : d = b) :
    [a, b] <+: c :: d :: text := by
  rw [first, second]
  exact ⟨text, rfl⟩

theorem closesComment_of_splitComment {depth : Nat} {cs text rest : List Char}
    (split : splitComment depth cs = some (text, rest)) : ClosesComment depth text := by
  fun_induction splitComment depth cs generalizing text rest with
  | case1 depth r ih =>
      obtain ⟨⟨a, b⟩, inner, same⟩ := Option.map_eq_some_iff.1 split
      cases same
      exact .enters (ih inner)
  | case2 r =>
      cases split
      exact .ends
  | case3 depth r ih =>
      obtain ⟨⟨a, b⟩, inner, same⟩ := Option.map_eq_some_iff.1 split
      cases same
      exact .leaves (ih inner)
  | case4 depth c r noOpening noEnd noClosing ih =>
      obtain ⟨⟨a, b⟩, inner, same⟩ := Option.map_eq_some_iff.1 split
      cases same
      have whole := splitComment_append inner
      apply ClosesComment.goesOn _ _ (ih inner)
      · intro entry
        obtain ⟨behind, same⟩ := entry
        obtain ⟨rfl, rfl⟩ := List.cons.inj same
        exact noOpening _ rfl whole.symm
      · intro ends
        obtain ⟨behind, same⟩ := ends
        obtain ⟨rfl, rfl⟩ := List.cons.inj same
        cases depth with
        | zero => exact noEnd _ rfl rfl whole.symm
        | succ depth => exact noClosing _ _ rfl rfl whole.symm
  | case5 => cases split

theorem splitComment_of_closesComment {depth : Nat} {text : List Char}
    (closes : ClosesComment depth text) (rest : List Char) :
    splitComment depth (text ++ rest) = some (text, rest) := by
  induction closes with
  | ends => rfl
  | leaves inner ih =>
      rw [List.cons_append, List.cons_append, splitComment, ih]
      rfl
  | enters inner ih =>
      rw [List.cons_append, List.cons_append, splitComment, ih]
      rfl
  | @goesOn depth c text noEntry noEnd inner ih =>
      cases text with
      | nil => cases inner.ne_nil rfl
      | cons d text =>
          rw [List.cons_append, List.cons_append, splitComment]
          · rw [← List.cons_append, ih]
            rfl
          · intro r slash same
            exact noEntry (prefix_pair slash (List.cons.inj same).1)
          · intro r _ star same
            exact noEnd (prefix_pair star (List.cons.inj same).1)
          · intro outer r _ star same
            exact noEnd (prefix_pair star (List.cons.inj same).1)

/-- No end is found only where there is none. -/
theorem not_closesComment {depth : Nat} {cs text : List Char}
    (none_ : splitComment depth cs = none) (front : text <+: cs) : ¬ ClosesComment depth text := by
  intro closes
  obtain ⟨rest, rfl⟩ := front
  rw [splitComment_of_closesComment closes] at none_
  cases none_

/-! The kinds of what the scanners find. -/

/-- What may stand before the quote that opens a string. -/
def stringMarkers : List (List Char) := [[], ['N'], ['n']]

theorem of_mem_stringMarkers {P : List Char → Prop} {marker : List Char}
    (known : marker ∈ stringMarkers) (bare : P []) (upper : P ['N']) (lower : P ['n']) :
    P marker := by
  have all : ∀ marker ∈ stringMarkers, P marker := by simp [stringMarkers, bare, upper, lower]
  exact all marker known

section Kinds

variable {c : Char} {r : List Char} {cut : Cut}

theorem blank?_kind (found : blank? c r = some cut) : cut.kind = .blank := by
  unfold blank? at found
  split at found <;> cases found
  rfl

theorem comment?_kind (found : comment? c r = some cut) :
    cut.kind = .lineComment ∨ cut.kind = .blockComment ∨ cut.kind = .unclosedComment := by
  unfold comment? at found
  split at found
  · cases found
    exact .inl rfl
  · split at found <;> cases found
    · exact .inr (.inl rfl)
    · exact .inr (.inr rfl)
  · cases found

theorem delimited_kind (opening close : Char) (r : List Char) :
    (delimited opening close r).kind = .token .identifier ∨
      (delimited opening close r).kind = .fault .emptyIdentifier ∨
      (delimited opening close r).kind = .fault (.unclosedIdentifier close) := by
  unfold delimited
  split
  · dsimp only
    split
    · exact .inr (.inl rfl)
    · exact .inl rfl
  · exact .inr (.inr rfl)

theorem string_kind (opening r : List Char) :
    (string opening r).kind = .token .stringLiteral ∨
      (string opening r).kind = .fault .unclosedString := by
  unfold string
  split
  · exact .inl rfl
  · exact .inr rfl

/-- What is found in quotes is a delimited name or a string, with or without a marker. -/
theorem quoted?_holds {P : Cut → Prop}
    (delimiter : ∀ (q : Quote) (r : List Char), q ≠ .single → P (delimited q.opening q.closing r))
    (literal : ∀ marker ∈ stringMarkers, ∀ r, P (string (marker ++ ['\'']) r))
    (found : quoted? c r = some cut) : P cut := by
  unfold quoted? at found
  split at found <;> cases found
  · exact delimiter .bracket _ nofun
  · exact delimiter .double _ nofun
  · exact literal [] (by decide) _
  · exact literal ['N'] (by decide) _
  · exact literal ['n'] (by decide) _

theorem number?_kind (found : number? c r = some cut) : cut.kind = .token .numberLiteral := by
  unfold number? at found
  split at found
  · cases found
    rfl
  · cases found
    rfl
  · split at found <;> cases found
    rfl

theorem variableName?_kind (found : variableName? c r = some cut) :
    cut.kind = .token .variable ∨ cut.kind = .fault .namelessVariable := by
  have named (begun r : List Char) :
      (named begun r).kind = .token .variable ∨
        (named begun r).kind = .fault .namelessVariable := by
    unfold Piece.named
    split
    · exact .inl rfl
    · exact .inr rfl
  unfold variableName? at found
  split at found <;> cases found <;> exact named _ _

theorem word_kind (lineIsBlank : Bool) (text rest : List Char) :
    (word lineIsBlank text rest).kind = .token .batchSeparator ∨
      (∃ k, (word lineIsBlank text rest).kind = .token (.keyword k)) ∨
      (word lineIsBlank text rest).kind = .token .identifier := by
  unfold word
  dsimp only
  split
  · exact .inl rfl
  · split
    · exact .inr (.inl ⟨_, rfl⟩)
    · exact .inr (.inr rfl)

end Kinds

/-- What the kind of a piece says of its text. What is not closed takes all the rest. -/
def Cut.Fits (cut : Cut) : Prop :=
  match cut.kind with
  | .blank => ∀ c ∈ cut.text, Text.isBlank c = true
  | .lineComment => ∃ body, cut.text = '-' :: '-' :: body ∧ '\n' ∉ body ∧
      cut.rest.head?.all (· == '\n')
  | .blockComment => ∃ body, cut.text = '/' :: '*' :: body ∧ ClosesComment 0 body
  | .unclosedComment => ∃ body, cut.text = '/' :: '*' :: body ∧ cut.rest = [] ∧
      ∀ text, text <+: body → ¬ ClosesComment 0 text
  | .token kind => kind ≠ .endOfInput
  | .fault fault => Kind.isClosed (.fault fault) = false → cut.rest = []

theorem blank?_fits {c : Char} {r : List Char} {cut : Cut} (found : blank? c r = some cut) :
    cut.Fits := by
  rw [blank?] at found
  split at found
  · rename_i blank
    cases found
    intro d member
    rcases List.mem_cons.1 member with rfl | member
    · exact blank
    · exact List.all_eq_true.1 List.all_takeWhile d member
  · cases found

theorem comment?_fits {c : Char} {r : List Char} {cut : Cut} (found : comment? c r = some cut) :
    cut.Fits := by
  fun_cases comment? c r with
  | case1 r =>
      cases found
      have head : (r.dropWhile (· != '\n')).head?.all (· == '\n') = true := by
        cases found : (r.dropWhile (· != '\n')).head? with
        | none => rfl
        | some d =>
            have stops := List.head?_dropWhile_not (· != '\n') r
            rw [found] at stops
            simpa using stops
      have noFeed : '\n' ∉ r.takeWhile (· != '\n') := by
        intro member
        have other := List.all_eq_true.1 List.all_takeWhile _ member
        cases other
      exact ⟨_, rfl, noFeed, head⟩
  | case2 r text rest split =>
      rw [comment?, split] at found
      cases found
      exact ⟨text, rfl, closesComment_of_splitComment split⟩
  | case3 r split =>
      rw [comment?, split] at found
      cases found
      exact ⟨r, rfl, rfl, fun text front => not_closesComment split front⟩
  | case4 => simp_all [comment?]

theorem quoted?_fits {c : Char} {r : List Char} {cut : Cut} (found : quoted? c r = some cut) :
    cut.Fits := by
  have delimitedFits (opening close : Char) (r : List Char) :
      (delimited opening close r).Fits := by
    unfold delimited
    split
    · rename_i text rest _
      by_cases empty : text = [close]
      · rw [if_pos empty]
        nofun
      · rw [if_neg empty]
        nofun
    · exact fun _ => rfl
  have stringFits (opening r : List Char) : (string opening r).Fits := by
    unfold string
    split
    · nofun
    · exact fun _ => rfl
  unfold quoted? at found
  split at found <;> cases found
  · exact delimitedFits _ _ _
  · exact delimitedFits _ _ _
  · exact stringFits _ _
  · exact stringFits _ _
  · exact stringFits _ _

theorem number?_fits {c : Char} {r : List Char} {cut : Cut} (found : number? c r = some cut) :
    cut.Fits := by
  unfold number? at found
  split at found
  · cases found
    nofun
  · cases found
    nofun
  · split at found <;> cases found
    nofun

theorem variableName?_fits {c : Char} {r : List Char} {cut : Cut}
    (found : variableName? c r = some cut) : cut.Fits := by
  have namedFits (begun r : List Char) : (named begun r).Fits := by
    unfold named
    split <;> nofun
  unfold variableName? at found
  split at found <;> cases found <;> exact namedFits _ _

theorem word_fits (lineIsBlank : Bool) (text rest : List Char) :
    (word lineIsBlank text rest).Fits := by
  unfold word
  dsimp only
  split
  · nofun
  · split <;> nofun

theorem sign_fits (c : Char) (r : List Char) : (sign c r).Fits := by
  unfold sign
  split <;> nofun

theorem orElse_holds {P : Cut → Prop} {a b : Option Cut} {d : Cut}
    (first : ∀ cut, a = some cut → P cut) (rest : P (b.getD d)) : P ((a <|> b).getD d) := by
  cases a with
  | none => exact rest
  | some cut => exact first cut rfl

/-- What holds of all that the scanners find holds of the first piece of a text. -/
theorem cut_holds {P : Cut → Prop} {lineIsBlank : Bool} {c : Char} {r : List Char}
    (blank : ∀ cut, blank? c r = some cut → P cut)
    (comment : ∀ cut, comment? c r = some cut → P cut)
    (quoted : ∀ cut, quoted? c r = some cut → P cut)
    (number : ∀ cut, number? c r = some cut → P cut)
    (variableName : ∀ cut, variableName? c r = some cut → P cut)
    (word : startsWord c = true → P (word lineIsBlank (c :: r.takeWhile continuesWord)
      (r.dropWhile continuesWord)))
    (sign : P (sign c r)) : P (cut lineIsBlank c r) := by
  apply orElse_holds blank
  apply orElse_holds comment
  apply orElse_holds quoted
  apply orElse_holds number
  apply orElse_holds variableName
  rw [word?]
  split
  · rename_i starts
    exact word starts
  · exact sign

/-- Where it is a token of the kind, its text is as `Q` says. -/
def Cut.Says (cut : Cut) (k : TokenKind) (Q : List Char → Prop) : Prop :=
  cut.kind = .token k → Q cut.text

section Says

variable {k : TokenKind} {Q : List Char → Prop}

theorem Cut.says_of_kind {cut : Cut} {kind : Kind} (is : cut.kind = kind)
    (other : kind ≠ .token k) : cut.Says k Q :=
  fun same => absurd (is.symm.trans same) other

theorem delimited_says (other : k ≠ .identifier) (opening close : Char) (r : List Char) :
    (delimited opening close r).Says k Q := by
  rcases delimited_kind opening close r with is | is | is <;>
    exact Cut.says_of_kind is (by simp [other.symm])

theorem string_says (other : k ≠ .stringLiteral) (opening r : List Char) :
    (string opening r).Says k Q := by
  rcases string_kind opening r with is | is <;> exact Cut.says_of_kind is (by simp [other.symm])

theorem word_says (noSeparator : k ≠ .batchSeparator) (noKeyword : ∀ word, k ≠ .keyword word)
    (noName : k ≠ .identifier) (lineIsBlank : Bool) (text rest : List Char) :
    (word lineIsBlank text rest).Says k Q := by
  rcases word_kind lineIsBlank text rest with is | ⟨word, is⟩ | is
  · exact Cut.says_of_kind is (by simp [noSeparator.symm])
  · exact Cut.says_of_kind is (by simp [(noKeyword word).symm])
  · exact Cut.says_of_kind is (by simp [noName.symm])

/-- The tokens of a kind that is no number and no variable are found by four scanners. -/
theorem cut_says {lineIsBlank : Bool} {c : Char} {r : List Char} (noNumber : k ≠ .numberLiteral)
    (noVariable : k ≠ .variable)
    (delimiter : ∀ (q : Quote) (r : List Char), q ≠ .single →
      (delimited q.opening q.closing r).Says k Q)
    (literal : ∀ marker ∈ stringMarkers, ∀ r, (string (marker ++ ['\'']) r).Says k Q)
    (word : startsWord c = true → (word lineIsBlank (c :: r.takeWhile continuesWord)
      (r.dropWhile continuesWord)).Says k Q)
    (sign : (sign c r).Says k Q) : (cut lineIsBlank c r).Says k Q := by
  apply cut_holds (P := fun cut => cut.Says k Q)
  · intro cut found
    exact Cut.says_of_kind (blank?_kind found) (by simp)
  · intro cut found
    rcases comment?_kind found with is | is | is <;> exact Cut.says_of_kind is (by simp)
  · intro cut found
    exact quoted?_holds (P := fun cut => cut.Says k Q) delimiter literal found
  · intro cut found
    exact Cut.says_of_kind (number?_kind found) (by simp [noNumber.symm])
  · intro cut found
    rcases variableName?_kind found with is | is <;>
      exact Cut.says_of_kind is (by simp [noVariable.symm])
  · exact word
  · exact sign

end Says

theorem cut_fits (lineIsBlank : Bool) (c : Char) (r : List Char) : (cut lineIsBlank c r).Fits :=
  cut_holds (fun _ => blank?_fits) (fun _ => comment?_fits) (fun _ => quoted?_fits)
    (fun _ => number?_fits) (fun _ => variableName?_fits) (fun _ => word_fits _ _ _)
    (sign_fits c r)

theorem Cut.Fits.not_endOfInput {cut : Cut} (fits : cut.Fits) : cut.kind ≠ .token .endOfInput := by
  intro ends
  unfold Fits at fits
  rw [ends] at fits
  exact fits rfl

theorem rest_of_unclosed {lineIsBlank : Bool} {c : Char} {r : List Char}
    (unclosed : (cut lineIsBlank c r).kind.isClosed = false) : (cut lineIsBlank c r).rest = [] := by
  have fits := cut_fits lineIsBlank c r
  unfold Cut.Fits at fits
  generalize cut lineIsBlank c r = first at fits unclosed
  obtain ⟨kind, text, rest⟩ := first
  cases kind with
  | unclosedComment =>
      obtain ⟨body, _, nothing, _⟩ := fits
      exact nothing
  | fault fault => exact fits unclosed
  | _ => cases unclosed

/-- What holds of the first piece of every text holds of all pieces. -/
theorem holds_of_mem_chain {P : Kind → List Char → Prop}
    (first : ∀ lineIsBlank c r, P (cut lineIsBlank c r).kind (cut lineIsBlank c r).text)
    {place : Location} {lineIsBlank : Bool} {cs : List Char} {piece : Piece}
    (member : piece ∈ chain place lineIsBlank cs) : P piece.kind piece.text := by
  fun_induction chain place lineIsBlank cs with
  | case1 => cases member
  | case2 place lineIsBlank c r _ ih =>
      rcases List.mem_cons.1 member with rfl | behind
      · exact first lineIsBlank c r
      · exact ih behind

theorem kind_of_mem_chain {place : Location} {lineIsBlank : Bool} {cs : List Char} {piece : Piece}
    (member : piece ∈ chain place lineIsBlank cs) : piece.kind ≠ .token .endOfInput :=
  holds_of_mem_chain (P := fun kind _ => kind ≠ .token .endOfInput)
    (fun lineIsBlank c r => (cut_fits lineIsBlank c r).not_endOfInput) member

end QueryNames.Piece
