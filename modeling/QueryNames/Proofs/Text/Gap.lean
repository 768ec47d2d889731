import QueryNames.Proofs.Text.Kind
import QueryNames.Proofs.Text.LineEnd
import QueryNames.Proofs.Text.QuotedName

/-!
Tokens before a gap. Main statement: how far a token goes depends on its own text only: cut off the
same text with a blank or nothing behind it, it is the same.
-/

namespace QueryNames.Piece

/-- Nothing, or a blank first. -/
inductive Gap : List Char → Prop
  | ends : Gap []
  | blank (r : List Char) : Gap (' ' :: r)

/-- The same cut of a text that goes on in another way. -/
def Cut.onto (cut : Cut) (more : List Char) : Cut := { cut with rest := more }

variable {c : Char} {r tail more : List Char}

namespace Gap

theorem any_eq_false {p : Char → Bool} (gap : Gap more) (stops : p ' ' = false) :
    more.head?.any p = false := by
  cases gap with
  | ends => rfl
  | blank r => exact stops

end Gap

theorem span_takeWhile {p : Char → Bool} (r : List Char) (stops : more.head?.any p = false) :
    (r.takeWhile p ++ more).takeWhile p = r.takeWhile p ∧
      (r.takeWhile p ++ more).dropWhile p = more :=
  span_append (fun c member => List.all_eq_true.1 List.all_takeWhile c member) stops

theorem Cut.run_onto {kind : Kind} {begun : List Char} {p : Char → Bool} (gap : Gap more)
    (stops : p ' ' = false) :
    run kind begun p (r.takeWhile p ++ more) = (run kind begun p r).onto more := by
  obtain ⟨taken, left⟩ := span_takeWhile r (gap.any_eq_false stops)
  rw [run, taken, left]
  rfl

/-- The text begins as `r` does, or with a gap. -/
def BeginsLike (r s : List Char) : Prop := ∀ d, s.head? = some d → d = ' ' ∨ r.head? = some d

theorem BeginsLike.of_front (front : tail <+: r) (gap : Gap more) :
    BeginsLike r (tail ++ more) := by
  intro d first
  cases tail with
  | nil =>
      cases gap with
      | ends => cases first
      | blank more =>
          cases first
          exact .inl rfl
  | cons e tail =>
      obtain ⟨rest, rfl⟩ := front
      exact .inr first

theorem BeginsLike.ne {s : List Char} {d : Char} (like : BeginsLike r s) (inked : d ≠ ' ')
    (other : ∀ r', r = d :: r' → False) : ∀ s', s = d :: s' → False := by
  rintro s' rfl
  obtain blank | first := like d rfl
  · exact inked blank
  · obtain ⟨r', same⟩ := List.head?_eq_some_iff.1 first
    exact other r' same

theorem BeginsLike.any {s : List Char} {p : Char → Bool} (like : BeginsLike r s)
    (stops : p ' ' = false) (first : s.head?.any p = true) : r.head?.any p = true := by
  obtain ⟨d, head, holds⟩ := (Option.any_eq_true _ _).1 first
  obtain rfl | same := like d head
  · rw [stops] at holds
    cases holds
  · rw [same]
    exact holds

/-! Quoted texts. -/

theorem splitQuoted_onto {close : Char} {cs text rest : List Char}
    (split : splitQuoted close cs = some (text, rest)) (single : more.head? ≠ some close) :
    splitQuoted close (text ++ more) = some (text, more) := by
  have alone : splitQuoted close (close :: more) = some ([close], more) := by
    cases more with
    | nil => simp [splitQuoted]
    | cons d more =>
        have other : d ≠ close := fun same => single (congrArg some same)
        simp [splitQuoted, other]
  fun_induction splitQuoted close cs generalizing text rest with
  | case1 | case3 => cases split
  | case2 | case5 =>
      cases split
      exact alone
  | case4 r ih =>
      obtain ⟨⟨a, b⟩, inner, same⟩ := Option.map_eq_some_iff.1 split
      cases same
      rw [List.cons_append, List.cons_append, splitQuoted_pair, ih inner]
      rfl
  | case6 c d r other ih =>
      obtain ⟨⟨a, b⟩, inner, same⟩ := Option.map_eq_some_iff.1 split
      cases same
      rw [List.cons_append, splitQuoted_other other, ih inner]
      rfl

/-- How far a scan goes depends on what it takes only: it takes the same before a gap, or at the end
of the text if what it takes is not closed. -/
def Cut.Detached (scan : Char → List Char → Option Cut) (c : Char) (cut : Cut) : Prop :=
  ∃ tail, cut.text = c :: tail ∧ ∀ more, Gap more → cut.kind.isClosed = true ∨ more = [] →
    scan c (tail ++ more) = some (cut.onto more)

theorem delimited_detached {opening close : Char} (other : close ≠ ' ') (r : List Char) :
    (delimited opening close r).Detached (fun _ r => some (delimited opening close r)) opening := by
  rcases split : splitQuoted close r with _ | ⟨text, rest⟩
  · refine ⟨r, by simp [delimited, split], ?_⟩
    rintro more - (closed | rfl)
    · simp [delimited, split, Kind.isClosed] at closed
    · simp [delimited, split, Cut.onto]
  · refine ⟨text, by simp [delimited, split], fun more gap _ => ?_⟩
    have single : more.head? ≠ some close := by
      cases gap with
      | ends => simp
      | blank r => exact fun same => other (Option.some.inj same).symm
    simp [delimited, split, splitQuoted_onto split single, Cut.onto]

theorem string_detached {begun : List Char} {scan : Char → List Char → Option Cut}
    (scans : ∀ r, scan c (begun ++ r) = some (string (c :: begun) r)) (r : List Char) :
    (string (c :: begun) r).Detached scan c := by
  rcases split : splitQuoted '\'' r with _ | ⟨text, rest⟩
  · refine ⟨begun ++ r, by simp [string, split], ?_⟩
    rintro more - (closed | rfl)
    · simp [string, split, Kind.isClosed] at closed
    · rw [List.append_nil, scans]
      simp [string, split, Cut.onto]
  · refine ⟨begun ++ text, by simp [string, split], fun more gap _ => ?_⟩
    have single : more.head? ≠ some '\'' := by
      cases gap <;> simp
    rw [List.append_assoc, scans]
    simp [string, split, splitQuoted_onto split single, Cut.onto]

theorem quoted?_detached {cut : Cut} (found : quoted? c r = some cut) : cut.Detached quoted? c := by
  unfold quoted? at found
  split at found <;> cases found
  · exact delimited_detached (by decide) _
  · exact delimited_detached (by decide) _
  · exact @string_detached _ [] quoted? (fun _ => rfl) _
  · exact @string_detached _ ['\''] quoted? (fun _ => rfl) _
  · exact @string_detached _ ['\''] quoted? (fun _ => rfl) _

/-! Numbers. -/

theorem splitFraction_point (r : List Char) :
    splitFraction ('.' :: r) = ('.' :: r.takeWhile Char.isDigit, r.dropWhile Char.isDigit) := rfl

theorem splitFraction_other (noPoint : r.head? ≠ some '.') : splitFraction r = ([], r) := by
  cases r with
  | nil => rfl
  | cons d r =>
      have noPoint : d ≠ '.' := fun same => noPoint (congrArg some same)
      simp [splitFraction, noPoint]

theorem splitFraction_onto (r : List Char) (noPoint : more.head? ≠ some '.')
    (noDigit : more.head?.any Char.isDigit = false) :
    splitFraction ((splitFraction r).1 ++ more) = ((splitFraction r).1, more) := by
  by_cases point : r.head? = some '.'
  · obtain ⟨digits, rfl⟩ := List.head?_eq_some_iff.1 point
    obtain ⟨taken, left⟩ := span_takeWhile digits noDigit
    rw [splitFraction_point, List.cons_append, splitFraction_point, taken, left]
  · rw [splitFraction_other point]
    exact splitFraction_other noPoint

theorem splitSign_other (noPlus : r.head? ≠ some '+') (noMinus : r.head? ≠ some '-') :
    splitSign r = ([], r) := by
  cases r with
  | nil => rfl
  | cons d r =>
      have noPlus : d ≠ '+' := fun same => noPlus (congrArg some same)
      have noMinus : d ≠ '-' := fun same => noMinus (congrArg some same)
      simp [splitSign, noPlus, noMinus]

theorem splitSign_onto (r : List Char) {d : Char} (digit : d.isDigit = true) :
    splitSign ((splitSign r).1 ++ d :: more) = ((splitSign r).1, d :: more) := by
  by_cases plus : r.head? = some '+'
  · obtain ⟨digits, rfl⟩ := List.head?_eq_some_iff.1 plus
    rfl
  by_cases minus : r.head? = some '-'
  · obtain ⟨digits, rfl⟩ := List.head?_eq_some_iff.1 minus
    rfl
  rw [splitSign_other plus minus]
  apply splitSign_other
  · rintro same
    cases Option.some.inj same
    cases digit
  · rintro same
    cases Option.some.inj same
    cases digit

theorem splitExponent_onto (r : List Char) (gap : Gap more) :
    splitExponent ((splitExponent r).1 ++ more) = ((splitExponent r).1, more) := by
  have nothing : splitExponent more = ([], more) := by
    cases gap <;> rfl
  cases r with
  | nil => exact nothing
  | cons e r =>
      by_cases exponent : (e = 'e' ∨ e = 'E') ∧ (splitSign r).2.head?.any Char.isDigit = true
      · have text : (splitExponent (e :: r)).1 =
            e :: ((splitSign r).1 ++ (splitSign r).2.takeWhile Char.isDigit) := by
          simp only [splitExponent, if_pos exponent]
          rfl
        obtain ⟨letter, digits⟩ := exponent
        cases found : (splitSign r).2 with
        | nil => simp [found] at digits
        | cons d ds =>
            have digit : d.isDigit = true := by simpa [found] using digits
            obtain ⟨taken, left⟩ := span_takeWhile ds (gap.any_eq_false (p := Char.isDigit) rfl)
            rw [text, found, List.takeWhile_cons_of_pos digit, List.cons_append, List.append_assoc,
              List.cons_append]
            simp [splitExponent, splitSign_onto, letter, digit, taken, left]
      · have none_ : (splitExponent (e :: r)).1 = [] := by
          simp only [splitExponent, if_neg exponent]
        rw [none_]
        exact nothing

/-- An exponent begins with its letter. -/
theorem head_exponent {p : Char → Bool} (noSmall : p 'e' = false) (noLarge : p 'E' = false)
    (r : List Char) (stops : more.head?.any p = false) :
    ((splitExponent r).1 ++ more).head?.any p = false := by
  cases r with
  | nil => exact stops
  | cons e r =>
      simp only [splitExponent]
      split
      · rename_i exponent
        obtain ⟨rfl | rfl, -⟩ := exponent
        · exact noSmall
        · exact noLarge
      · exact stops

/-- A fraction begins with its point. -/
theorem head_fraction {p : Char → Bool} (noPoint : p '.' = false) (r : List Char)
    (stops : more.head?.any p = false) : ((splitFraction r).1 ++ more).head?.any p = false := by
  by_cases point : r.head? = some '.'
  · obtain ⟨digits, rfl⟩ := List.head?_eq_some_iff.1 point
    exact noPoint
  · rw [splitFraction_other point]
    exact stops

theorem number_onto (cs : List Char) (gap : Gap more) :
    number ((number cs).text ++ more) = (number cs).onto more := by
  generalize exponent : splitExponent (splitFraction (cs.dropWhile Char.isDigit)).2 = tail
  have noDigit : (tail.1 ++ more).head?.any Char.isDigit = false := by
    rw [← exponent]
    exact head_exponent rfl rfl _ (gap.any_eq_false rfl)
  have noPoint : (tail.1 ++ more).head?.any (· == '.') = false := by
    rw [← exponent]
    exact head_exponent rfl rfl _ (gap.any_eq_false rfl)
  obtain ⟨taken, left⟩ := span_takeWhile cs
    (head_fraction (p := Char.isDigit) rfl (cs.dropWhile Char.isDigit) noDigit)
  have fraction := @splitFraction_onto (tail.1 ++ more) (cs.dropWhile Char.isDigit)
    (fun same => by rw [same] at noPoint; cases noPoint) noDigit
  have rest : splitExponent (tail.1 ++ more) = (tail.1, more) := by
    rw [← exponent]
    exact splitExponent_onto _ gap
  simp only [number, exponent, Cut.onto, List.append_assoc, taken, left, fraction, rest]

/-- A point is followed by a digit in its number, too. -/
theorem number_goesOn {more' : List Char} (starts : c.isDigit ∨ c = '.' ∧ r.head?.any Char.isDigit)
    (text : (number (c :: r)).text = c :: tail) :
    c.isDigit ∨ c = '.' ∧ (tail ++ more').head?.any Char.isDigit := by
  refine starts.imp_right ?_
  rintro ⟨rfl, digit⟩
  cases r with
  | nil => cases digit
  | cons d r =>
      have digit : d.isDigit = true := digit
      have point : Char.isDigit '.' = false := rfl
      simp only [number, List.dropWhile_cons_of_neg, List.takeWhile_cons_of_neg, point,
        Bool.false_eq_true, not_false_eq_true, splitFraction, List.takeWhile_cons_of_pos digit,
        List.nil_append, List.cons_append, List.cons.injEq, true_and] at text
      rw [← text]
      exact ⟨rfl, digit⟩

theorem number?_detached {cut : Cut} (found : number? c r = some cut) : cut.Detached number? c := by
  have split := number?_splits found
  fun_cases number? c r with
  | case1 digits =>
      cases found
      exact ⟨'x' :: digits.takeWhile Text.isHexDigit, rfl,
        fun more gap _ => congrArg some (Cut.run_onto gap rfl)⟩
  | case2 digits =>
      cases found
      exact ⟨'X' :: digits.takeWhile Text.isHexDigit, rfl,
        fun more gap _ => congrArg some (Cut.run_onto gap rfl)⟩
  | case3 c r starts noLower noUpper =>
      rw [number?.eq_3 _ _ noLower noUpper, if_pos starts] at found
      cases found
      obtain ⟨d, tail, text⟩ := List.exists_cons_of_ne_nil split.text_ne_nil
      have whole := split.append
      rw [text] at whole
      obtain ⟨rfl, front⟩ := List.cons.inj whole
      refine ⟨tail, text, fun more gap _ => ?_⟩
      have like := BeginsLike.of_front ⟨_, front⟩ gap
      rw [number?.eq_3, if_pos (number_goesOn starts text), ← List.cons_append, ← text,
        number_onto _ gap]
      · exact fun digits zero => like.ne (by decide) (fun r' => noLower r' zero) digits
      · exact fun digits zero => like.ne (by decide) (fun r' => noUpper r' zero) digits
  | case4 c r starts noLower noUpper =>
      rw [number?.eq_3 _ _ noLower noUpper, if_neg starts] at found
      cases found

/-! Words and variables. -/

theorem named_detached {begun : List Char} {scan : Char → List Char → Option Cut}
    (scans : ∀ s, BeginsLike r s → scan c (begun ++ s) = some (named (c :: begun) s)) :
    (named (c :: begun) r).Detached scan c := by
  have stops : continuesWord ' ' = false := endsWord_blank []
  cases starts : r.head?.any continuesWord with
  | true =>
      refine ⟨begun ++ r.takeWhile continuesWord, by simp [named, starts, Cut.run],
        fun more gap _ => ?_⟩
      have like := BeginsLike.of_front (List.takeWhile_prefix continuesWord (l := r)) gap
      have starts' : (r.takeWhile continuesWord ++ more).head?.any continuesWord = true := by
        cases r with
        | nil => cases starts
        | cons d r =>
            have starts : continuesWord d = true := starts
            rw [List.takeWhile_cons_of_pos starts]
            exact starts
      rw [List.append_assoc, scans _ like, named, if_pos starts', named, if_pos starts,
        Cut.run_onto gap stops]
  | false =>
      refine ⟨begun, by simp [named, starts], fun more gap _ => ?_⟩
      rw [scans more (BeginsLike.of_front List.nil_prefix gap), named, named, starts,
        gap.any_eq_false stops]
      rfl

theorem variableName?_detached {cut : Cut} (found : variableName? c r = some cut) :
    cut.Detached variableName? c := by
  fun_cases variableName? c r with
  | case1 r =>
      cases found
      exact @named_detached _ _ ['@'] variableName? fun _ _ => rfl
  | case2 r single =>
      rw [variableName?.eq_2 _ single] at found
      cases found
      refine @named_detached _ _ [] variableName? fun s like => ?_
      rw [List.nil_append, variableName?.eq_2]
      exact like.ne (by decide) single
  | case3 c r noDouble noSingle =>
      rw [variableName?] at found
      · cases found
      · exact noSingle
      · exact noDouble

/-- The word of a batch separator is no keyword. -/
theorem ofWord?_go {text : List Char} (go : Text.sameAsciiCase text ['g', 'o'] = true) :
    Keyword.ofWord? (String.ofList text) = none := by
  have upper (c : Char) : c.toLower.toUpper = c.toUpper :=
    Text.toLower_blind (p := Char.toUpper) (by decide) c
  have same : text.map Char.toUpper = ['G', 'O'] := by
    have lower : text.map Char.toLower = ['g', 'o'] := eq_of_beq go
    rw [← List.map_congr_left fun c _ => upper c, ← Function.comp_def, ← List.map_map, lower]
    rfl
  have word : (String.ofList text).toUpper = "GO" := by
    apply String.toList_injective
    show ((String.ofList text).map Char.toUpper).toList = _
    rw [String.toList_map, String.toList_ofList, same]
    rfl
  simp only [Keyword.ofWord?, word]
  decide +kernel

/-- Neither a batch separator nor a name that is spelled as one. -/
def NoSeparator (kind : Kind) (text : List Char) : Prop :=
  kind ≠ .token .batchSeparator ∧
    (kind = .token .identifier → Text.sameAsciiCase text ['g', 'o'] = false)

theorem plain_of_noSeparator {lineIsBlank : Bool} {text : List Char}
    (noSeparator : NoSeparator (word lineIsBlank text r).kind (word lineIsBlank text r).text) :
    Text.sameAsciiCase text ['g', 'o'] = false := by
  rw [← Bool.not_eq_true]
  intro go
  obtain ⟨mark, name⟩ := noSeparator
  unfold word at mark name
  dsimp only at mark name
  generalize (if lineIsBlank && Text.sameAsciiCase text ['g', 'o'] then separatorTail? r
    else none) = tail? at mark name
  cases tail? with
  | none =>
      rw [ofWord?_go go] at name
      cases (name rfl).symm.trans go
  | some tail => exact mark rfl

section Word

variable {lineIsBlank : Bool} {text : List Char}
  (other : Text.sameAsciiCase text ['g', 'o'] = false)

include other

theorem word_text : (word lineIsBlank text r).text = text := by
  simp only [word, other, Bool.and_false, Bool.false_eq_true, if_false]
  split <;> rfl

theorem word_onto (lineIsBlank' : Bool) :
    word lineIsBlank' text more = (word lineIsBlank text r).onto more := by
  simp only [word, other, Bool.and_false, Bool.false_eq_true, if_false]
  split <;> rfl

end Word

theorem word?_detached {lineIsBlank : Bool} {cut : Cut} (found : word? lineIsBlank c r = some cut)
    (noSeparator : NoSeparator cut.kind cut.text) (lineIsBlank' : Bool) :
    cut.Detached (word? lineIsBlank') c := by
  have stops : continuesWord ' ' = false := endsWord_blank []
  rw [word?] at found
  split at found <;> cases found
  rename_i starts
  have other := plain_of_noSeparator noSeparator
  refine ⟨r.takeWhile continuesWord, word_text other, fun more gap _ => ?_⟩
  obtain ⟨taken, left⟩ := span_takeWhile r (gap.any_eq_false stops)
  rw [word?, if_pos starts, taken, left, word_onto other]

/-! What a scan does not take it does not take from a text that begins in the same way. -/

section Absent

variable {s : List Char}

theorem comment?_absent (like : BeginsLike r s) (absent : comment? c r = none) :
    comment? c s = none := by
  have dash : c = '-' → ∀ r', r = '-' :: r' → False := by
    rintro rfl r' rfl
    cases absent
  have slash : c = '/' → ∀ r', r = '*' :: r' → False := by
    rintro rfl r' rfl
    rw [comment?] at absent
    split at absent <;> cases absent
  rw [comment?]
  · exact fun s' is => like.ne (by decide) (dash is) s'
  · exact fun s' is => like.ne (by decide) (slash is) s'

theorem quoted?_absent (like : BeginsLike r s) (absent : quoted? c r = none) :
    quoted? c s = none := by
  have large : c = 'N' → ∀ r', r = '\'' :: r' → False := by
    rintro rfl r' rfl
    cases absent
  have small : c = 'n' → ∀ r', r = '\'' :: r' → False := by
    rintro rfl r' rfl
    cases absent
  rw [quoted?]
  · rintro rfl
    cases absent
  · rintro rfl
    cases absent
  · rintro rfl
    cases absent
  · exact fun s' is => like.ne (by decide) (large is) s'
  · exact fun s' is => like.ne (by decide) (small is) s'

theorem number?_absent (like : BeginsLike r s) (absent : number? c r = none) :
    number? c s = none := by
  fun_cases number? c r with
  | case1 | case2 => cases absent
  | case3 c r starts noLower noUpper =>
      rw [number?.eq_3 _ _ noLower noUpper, if_pos starts] at absent
      cases absent
  | case4 c r stops noLower noUpper =>
      rw [number?.eq_3, if_neg]
      · exact fun starts => stops (starts.imp_right (And.imp_right (like.any rfl)))
      · exact fun digits zero => like.ne (by decide) (fun r' => noLower r' zero) digits
      · exact fun digits zero => like.ne (by decide) (fun r' => noUpper r' zero) digits

theorem variableName?_absent (absent : variableName? c r = none) : variableName? c s = none := by
  have sign : c ≠ '@' := by
    rintro rfl
    unfold variableName? at absent
    split at absent <;> contradiction
  rw [variableName?]
  · exact sign
  · exact fun _ is => absurd is sign

theorem word?_absent {lineIsBlank : Bool} (absent : word? lineIsBlank c r = none)
    (lineIsBlank' : Bool) : word? lineIsBlank' c s = none := by
  rw [word?] at absent ⊢
  split at absent
  · cases absent
  · rename_i other
    rw [if_neg other]

end Absent

/-! Signs and whole cuts. -/

theorem sign_onto (gap : Gap more) :
    ∃ tail, (sign c r).text = c :: tail ∧ sign c (tail ++ more) = (sign c r).onto more := by
  fun_cases sign c r
  case case10 =>
    refine ⟨[], rfl, ?_⟩
    cases gap <;> rfl
  case case12 =>
    refine ⟨[], rfl, ?_⟩
    cases gap <;> rfl
  case case24 =>
    refine ⟨[], rfl, ?_⟩
    cases gap <;> simp_all [sign, Cut.onto]
  all_goals exact ⟨_, rfl, rfl⟩

theorem exists_text_cut (lineIsBlank : Bool) (c : Char) (r : List Char) :
    ∃ tail, (cut lineIsBlank c r).text = c :: tail := by
  have split := cut_splits lineIsBlank c r
  obtain ⟨d, tail, text⟩ := List.exists_cons_of_ne_nil split.text_ne_nil
  have whole := split.append
  rw [text] at whole
  obtain ⟨rfl, -⟩ := List.cons.inj whole
  exact ⟨tail, text⟩

/-- A token or a fault among tokens. -/
def Kind.isToken : Kind → Bool
  | .token _ | .fault _ => true
  | _ => false

/-- A token with the text `c :: tail` that may stand before `more`. -/
structure Cut.Fixed (c : Char) (tail more : List Char) (cut : Cut) : Prop where
  text : cut.text = c :: tail
  isToken : cut.kind.isToken = true
  noSeparator : NoSeparator cut.kind cut.text
  ends : cut.kind.isClosed = true ∨ more = []

theorem Cut.Detached.onto {scan : Char → List Char → Option Cut} {cut : Cut}
    (detached : cut.Detached scan c) (fixed : cut.Fixed c tail more) (gap : Gap more) :
    scan c (tail ++ more) = some (cut.onto more) := by
  obtain ⟨tail', text, onto⟩ := detached
  obtain rfl : tail = tail' := (List.cons.inj (fixed.text.symm.trans text)).2
  exact onto more gap fixed.ends

theorem orElse_onto {a a' b b' : Option Cut} {d d' : Cut} {P : Cut → Prop}
    (holds : P ((a <|> b).getD d))
    (first : ∀ cut, a = some cut → P cut → a' = some (cut.onto more))
    (absent : a = none → a' = none)
    (rest : P (b.getD d) → b'.getD d' = (b.getD d).onto more) :
    (a' <|> b').getD d' = ((a <|> b).getD d).onto more := by
  cases a with
  | none =>
      rw [absent rfl]
      exact rest holds
  | some cut =>
      rw [first cut rfl holds]
      rfl

theorem cut_onto {lineIsBlank lineIsBlank' : Bool} (fixed : (cut lineIsBlank c r).Fixed c tail more)
    (gap : Gap more) : cut lineIsBlank' c (tail ++ more) = (cut lineIsBlank c r).onto more := by
  have front : tail <+: r := by
    have whole := (cut_splits lineIsBlank c r).append
    rw [fixed.text] at whole
    exact ⟨_, (List.cons.inj whole).2⟩
  have like := BeginsLike.of_front front gap
  refine orElse_onto fixed (fun cut found fixed => ?_) (fun absent => ?_) fun fixed => ?_
  · have isToken := fixed.isToken
    rw [blank?] at found
    split at found <;> cases found
    cases isToken
  · rw [blank?] at absent ⊢
    split at absent
    · cases absent
    · rename_i inked
      rw [if_neg inked]
  refine orElse_onto fixed (fun cut found fixed => ?_) (comment?_absent like) fun fixed => ?_
  · have isToken := fixed.isToken
    unfold comment? at found
    split at found
    · cases found
      cases isToken
    · split at found <;> cases found <;> cases isToken
    · cases found
  refine orElse_onto fixed (fun cut found fixed => (quoted?_detached found).onto fixed gap)
    (quoted?_absent like) fun fixed => ?_
  refine orElse_onto fixed (fun cut found fixed => (number?_detached found).onto fixed gap)
    (number?_absent like) fun fixed => ?_
  refine orElse_onto fixed (fun cut found fixed => (variableName?_detached found).onto fixed gap)
    variableName?_absent fun fixed => ?_
  cases found : word? lineIsBlank c r with
  | none =>
      rw [found] at fixed
      rw [word?_absent found lineIsBlank']
      obtain ⟨tail', text, onto⟩ := @sign_onto c r more gap
      obtain rfl : tail = tail' := (List.cons.inj (fixed.text.symm.trans text)).2
      exact onto
  | some cut =>
      rw [found] at fixed
      rw [(word?_detached found fixed.noSeparator lineIsBlank').onto fixed gap]
      rfl

end QueryNames.Piece
