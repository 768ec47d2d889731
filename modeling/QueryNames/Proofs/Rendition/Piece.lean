import QueryNames.Proofs.Rendition.Script

/-!
Texts and their renditions. Main statement: a text with its letters in another case is cut at the
same places into tokens of the same kinds.
-/

namespace QueryNames

instance : Renderable Piece.Kind where
  render f
    | .fault fault => .fault (render f fault)
    | kind => kind

instance : Renderable Piece.Cut :=
  ⟨fun f cut => ⟨render f cut.kind, render f cut.text, render f cut.rest⟩⟩

instance : Renderable Piece :=
  ⟨fun f piece => ⟨render f piece.kind, render f piece.text, f.place piece.location⟩⟩

namespace Piece

variable (f : Rendition)

section Scans

variable {p : Char → Bool}

theorem takeWhile_render (blind : ∀ c, p (f.letter c) = p c) (cs : List Char) :
    (render f cs).takeWhile p = render f (cs.takeWhile p) := by
  rw [render_list, List.takeWhile_map, show p ∘ render f = p from funext blind]
  rfl

theorem dropWhile_render (blind : ∀ c, p (f.letter c) = p c) (cs : List Char) :
    (render f cs).dropWhile p = render f (cs.dropWhile p) := by
  rw [render_list, List.dropWhile_map, show p ∘ render f = p from funext blind]
  rfl

theorem head?_render (blind : ∀ c, p (f.letter c) = p c) (cs : List Char) :
    (render f cs).head?.any p = cs.head?.any p := by
  cases cs with
  | nil => rfl
  | cons c cs => exact blind c

theorem run_render (kind : Kind) (same : render f kind = kind)
    (blind : ∀ c, p (f.letter c) = p c) (begun rest : List Char) :
    Cut.run kind (render f begun) p (render f rest) = render f (Cut.run kind begun p rest) := by
  rw [Cut.run, takeWhile_render f blind, dropWhile_render f blind, ← render_append]
  exact congrArg (Cut.mk · _ _) same.symm

end Scans

theorem render_sign {q : Char} (sign : q ∉ Text.letters) : render f q = q :=
  (f.letter_eq sign q).2 rfl

/-- A sign that does not begin what is left does not begin its rendition. -/
theorem not_sign {q : Char} (sign : q ∉ Text.letters) {r : List Char}
    (other : ∀ rest, r = q :: rest → False) : ∀ rest, render f r = q :: rest → False := by
  intro rest is
  cases r with
  | nil => cases is
  | cons c r =>
      have head : f.letter c = q := (List.cons.inj is).1
      exact other r (by rw [(f.letter_eq sign c).1 head])

theorem not_signs {q q' : Char} (sign : q ∉ Text.letters) (sign' : q' ∉ Text.letters) {c : Char}
    {r : List Char} (other : ∀ rest, c = q → r = q' :: rest → False) :
    ∀ rest, render f c = q → render f r = q' :: rest → False := by
  intro rest first
  exact not_sign f sign' (fun rest => other rest ((f.letter_eq sign c).1 first)) rest

theorem render_cut (kind : Kind) (text rest : List Char) :
    render f (Cut.mk kind text rest) = ⟨render f kind, render f text, render f rest⟩ := rfl

@[simp] theorem render_token (kind : TokenKind) : render f (Kind.token kind) = .token kind := rfl

@[simp] theorem render_blockComment : render f Kind.blockComment = .blockComment := rfl

@[simp] theorem render_unclosedComment : render f Kind.unclosedComment = .unclosedComment := rfl

theorem blank?_render (c : Char) (r : List Char) :
    blank? (render f c) (render f r) = render f (blank? c r) := by
  unfold blank?
  rw [show Text.isBlank (render f c) = Text.isBlank c from f.isBlank_letter c]
  split
  · exact congrArg some (run_render f _ rfl f.isBlank_letter [c] r)
  · rfl

theorem splitComment_render (depth : Nat) (cs : List Char) :
    splitComment depth (render f cs) = render f (splitComment depth cs) := by
  have slash : render f '/' = '/' := render_sign f (by decide)
  have star : render f '*' = '*' := render_sign f (by decide)
  fun_induction splitComment depth cs with
  | case1 depth r ih =>
      rw [render_cons, render_cons, slash, star, splitComment, ih]
      cases splitComment (depth + 1) r <;> simp [slash, star]
  | case2 r =>
      rw [render_cons, render_cons, slash, star, splitComment]
      simp [slash, star]
  | case3 depth r ih =>
      rw [render_cons, render_cons, slash, star, splitComment, ih]
      cases splitComment depth r <;> simp [slash, star]
  | case4 depth c r noOpening noClosing noClosing' ih =>
      rw [render_cons, splitComment, ih]
      · cases splitComment depth r <;> rfl
      · exact not_signs f (by decide) (by decide) noOpening
      · exact fun r' inner => not_signs f (by decide) (by decide) (noClosing · inner) r'
      · exact fun depth' r' inner =>
          not_signs f (by decide) (by decide) (noClosing' depth' · inner) r'
  | case5 => rfl

theorem inLine_letter (c : Char) : (f.letter c != '\n') = (c != '\n') :=
  f.letter_blind (p := (· != '\n')) (by decide) c

theorem comment?_render (c : Char) (r : List Char) :
    comment? (render f c) (render f r) = render f (comment? c r) := by
  have slash : render f '/' = '/' := render_sign f (by decide)
  have star : render f '*' = '*' := render_sign f (by decide)
  have dash : render f '-' = '-' := render_sign f (by decide)
  fun_cases comment? c r with
  | case1 r =>
      have run := run_render f .lineComment (p := (· != '\n')) rfl (inLine_letter f) ['-', '-'] r
      rw [render_cons, render_cons, dash] at run
      rw [render_cons, dash, comment?]
      exact congrArg some run
  | case2 r text rest split =>
      rw [render_cons, slash, star, comment?, splitComment_render, split]
      simp [render_cut, slash, star]
  | case3 r split =>
      rw [render_cons, slash, star, comment?, splitComment_render, split]
      simp [render_cut, slash, star]
  | case4 c r noLine noBlock =>
      rw [comment?]
      · rfl
      · exact not_signs f (by decide) (by decide) noLine
      · exact not_signs f (by decide) (by decide) noBlock

theorem splitQuoted_render {close : Char} (closes : ∀ c, f.letter c = close ↔ c = close)
    (cs : List Char) : splitQuoted close (render f cs) = render f (splitQuoted close cs) := by
  have stays : render f close = close := (closes close).2 rfl
  fun_induction splitQuoted close cs with
  | case1 => rfl
  | case2 => simp [splitQuoted, stays]
  | case3 c other =>
      have other' : render f c ≠ close := mt (closes c).1 other
      simp [splitQuoted, other']
  | case4 r ih =>
      rw [render_cons, render_cons, stays, splitQuoted, if_pos rfl, if_pos rfl, ih]
      cases splitQuoted close r <;> simp [stays]
  | case5 d r other =>
      have other' : render f d ≠ close := mt (closes d).1 other
      rw [render_cons, render_cons, stays, splitQuoted, if_pos rfl, if_neg other']
      simp [stays]
  | case6 c d r other ih =>
      have other' : render f c ≠ close := mt (closes c).1 other
      rw [render_cons] at ih ⊢
      rw [render_cons, splitQuoted, if_neg other', ih]
      cases splitQuoted close (d :: r) <;> rfl

theorem sign_render (c : Char) (r : List Char) :
    sign (render f c) (render f r) = render f (sign c r) := by
  have less : render f '<' = '<' := render_sign f (by decide)
  have greater : render f '>' = '>' := render_sign f (by decide)
  fun_cases sign c r
  case case10 noEq noGreater =>
    rw [less, sign]
    · simp [render_cut, less]
    · exact not_sign f (by decide) noEq
    · exact not_sign f (by decide) noGreater
  case case12 noEq =>
    rw [greater, sign]
    · simp [render_cut, greater]
    · exact not_sign f (by decide) noEq
  case case24 =>
    rw [sign]
    · rfl
    all_goals first
      | exact not_signs f (by decide) (by decide) ‹_›
      | exact mt (f.letter_eq (by decide) _).1 ‹_›
  all_goals simp (disch := decide) only [render_sign, render_cut, render_cons, render_nil,
    render_token, sign]

theorem delimited_render {opening close : Char} (opens : render f opening = opening)
    (closes : ∀ c, render f c = close ↔ c = close) (r : List Char) :
    delimited opening close (render f r) = render f (delimited opening close r) := by
  have stays : render f close = close := (closes close).2 rfl
  unfold delimited
  rw [splitQuoted_render f closes]
  cases splitQuoted close r with
  | none =>
      rw [render_none]
      simp only [render_cut, render_cons, render_nil, opens]
      exact congrArg (fun c => Cut.mk (.fault (.unclosedIdentifier c)) _ _) stays.symm
  | some parts =>
      obtain ⟨text, rest⟩ := parts
      have empty : render f text = [close] ↔ text = [close] := by
        rcases text with _ | ⟨c, _ | ⟨d, text⟩⟩ <;> simp [closes]
      rw [render_some, render_pair]
      simp only [empty, render_cut, render_cons, opens]
      split <;> rfl

theorem string_render (opening r : List Char) :
    string (render f opening) (render f r) = render f (string opening r) := by
  unfold string
  rw [splitQuoted_render f (f.letter_eq (by decide))]
  cases splitQuoted '\'' r with
  | none =>
      rw [render_none, render_cut, render_append]
      rfl
  | some parts =>
      rw [render_some, render_cut, render_append]
      rfl

theorem quoted?_render (c : Char) (r : List Char) :
    quoted? (render f c) (render f r) = render f (quoted? c r) := by
  have bracket : render f '[' = '[' := render_sign f (by decide)
  have double : render f '"' = '"' := render_sign f (by decide)
  have single : render f '\'' = '\'' := render_sign f (by decide)
  have marker (c : Char) : (render f c = 'N' ∨ render f c = 'n') ↔ (c = 'N' ∨ c = 'n') :=
    f.letter_pair (by decide) c
  have marked {c : Char} (is : c = 'N' ∨ c = 'n') (r : List Char) :
      quoted? (render f c) (render f ('\'' :: r)) = render f (some (string [c, '\''] r)) := by
    have whole := string_render f [c, '\''] r
    rw [render_cons, render_cons, render_nil, single] at whole
    rw [render_cons, single, render_some, ← whole]
    rcases (marker c).2 is with upper | lower
    · rw [upper, quoted?]
    · rw [lower, quoted?]
  fun_cases quoted? c r with
  | case1 r =>
      rw [bracket, quoted?, delimited_render f bracket (f.letter_eq (by decide))]
      rfl
  | case2 r =>
      rw [double, quoted?, delimited_render f double (f.letter_eq (by decide))]
      rfl
  | case3 r =>
      have whole := string_render f ['\''] r
      rw [render_cons, render_nil, single] at whole
      rw [single, quoted?, whole]
      rfl
  | case4 r => exact marked (.inl rfl) r
  | case5 r => exact marked (.inr rfl) r
  | case6 c r noBracket noDouble noSingle noUpper noLower =>
      have unmarked (rest : List Char) (is : render f c = 'N' ∨ render f c = 'n') :
          render f r = '\'' :: rest → False := by
        rcases (marker c).1 is with rfl | rfl
        · exact not_sign f (by decide) (noUpper · rfl) rest
        · exact not_sign f (by decide) (noLower · rfl) rest
      rw [quoted?]
      · rfl
      · exact mt (f.letter_eq (by decide) c).1 noBracket
      · exact mt (f.letter_eq (by decide) c).1 noDouble
      · exact mt (f.letter_eq (by decide) c).1 noSingle
      · exact fun rest is => unmarked rest (.inl is)
      · exact fun rest is => unmarked rest (.inr is)

theorem continuesWord_render (c : Char) : continuesWord (f.letter c) = continuesWord c :=
  f.letter_blind (by decide) c

theorem startsWord_render (c : Char) : startsWord (f.letter c) = startsWord c :=
  f.letter_blind (by decide) c

theorem named_render (begun r : List Char) :
    named (render f begun) (render f r) = render f (named begun r) := by
  unfold named
  rw [head?_render f (continuesWord_render f)]
  split
  · exact run_render f _ rfl (continuesWord_render f) begun r
  · rfl

theorem variableName?_render (c : Char) (r : List Char) :
    variableName? (render f c) (render f r) = render f (variableName? c r) := by
  have mark : render f '@' = '@' := render_sign f (by decide)
  fun_cases variableName? c r with
  | case1 r =>
      have whole := named_render f ['@', '@'] r
      rw [render_cons, render_cons, render_nil, mark] at whole
      rw [render_cons, mark, variableName?, whole]
      rfl
  | case2 r once =>
      have whole := named_render f ['@'] r
      rw [render_cons, render_nil, mark] at whole
      rw [mark, variableName?, whole]
      · rfl
      · exact not_sign f (by decide) once
  | case3 c r noTwo noOne =>
      rw [variableName?]
      · rfl
      · exact mt (f.letter_eq (by decide) c).1 noOne
      · exact not_signs f (by decide) (by decide) noTwo

/-! Numbers. -/

theorem splitFraction_render (cs : List Char) :
    splitFraction (render f cs) = render f (splitFraction cs) := by
  have period : render f '.' = '.' := render_sign f (by decide)
  fun_cases splitFraction cs with
  | case1 r =>
      rw [render_cons, period, splitFraction, takeWhile_render f f.isDigit_letter,
        dropWhile_render f f.isDigit_letter, render_pair, render_cons, period]
  | case2 cs noPeriod =>
      rw [splitFraction]
      · rfl
      · exact not_sign f (by decide) noPeriod

theorem splitSign_render (cs : List Char) : splitSign (render f cs) = render f (splitSign cs) := by
  have plus : render f '+' = '+' := render_sign f (by decide)
  have minus : render f '-' = '-' := render_sign f (by decide)
  fun_cases splitSign cs with
  | case1 r => rw [render_cons, plus, splitSign, render_pair, render_cons, plus, render_nil]
  | case2 r => rw [render_cons, minus, splitSign, render_pair, render_cons, minus, render_nil]
  | case3 cs noPlus noMinus =>
      rw [splitSign]
      · rfl
      · exact not_sign f (by decide) noPlus
      · exact not_sign f (by decide) noMinus

theorem splitExponent_render (cs : List Char) :
    splitExponent (render f cs) = render f (splitExponent cs) := by
  cases cs with
  | nil => rfl
  | cons e r =>
      have marker : (render f e = 'e' ∨ render f e = 'E') ↔ (e = 'e' ∨ e = 'E') :=
        f.letter_pair (by decide) e
      rw [render_cons, splitExponent, splitExponent, splitSign_render]
      rcases splitSign r with ⟨sign, digits⟩
      simp only [render_pair, marker, head?_render f f.isDigit_letter,
        takeWhile_render f f.isDigit_letter, dropWhile_render f f.isDigit_letter]
      split
      · rw [render_pair, render_append, render_cons]
      · rfl

theorem number_render (cs : List Char) : number (render f cs) = render f (number cs) := by
  unfold number
  rw [takeWhile_render f f.isDigit_letter, dropWhile_render f f.isDigit_letter,
    splitFraction_render]
  rcases splitFraction (cs.dropWhile Char.isDigit) with ⟨fraction, rest⟩
  dsimp only [render_pair]
  rw [splitExponent_render]
  rcases splitExponent rest with ⟨exponent, rest⟩
  rw [render_cut, render_append, render_append]
  rfl

theorem number?_render (c : Char) (r : List Char) :
    number? (render f c) (render f r) = render f (number? c r) := by
  have zero : render f '0' = '0' := render_sign f (by decide)
  have marker (c : Char) : (render f c = 'x' ∨ render f c = 'X') ↔ (c = 'x' ∨ c = 'X') :=
    f.letter_pair (by decide) c
  have marked {x : Char} (is : x = 'x' ∨ x = 'X') (digits : List Char) :
      number? (render f '0') (render f (x :: digits)) =
        render f (some (.run (.token .numberLiteral) ['0', x] Text.isHexDigit digits)) := by
    have run := run_render f (.token .numberLiteral) rfl f.isHexDigit_letter ['0', x] digits
    rw [render_cons, render_cons, render_nil, zero] at run
    rw [render_cons, zero, render_some, ← run]
    rcases (marker x).2 is with lower | upper
    · rw [lower, number?]
    · rw [upper, number?]
  have unmarked {c : Char} {r : List Char} (lower : ∀ digits, c = '0' → r = 'x' :: digits → False)
      (upper : ∀ digits, c = '0' → r = 'X' :: digits → False) (x : Char) (is : x = 'x' ∨ x = 'X')
      (digits : List Char) : render f c = '0' → render f r = x :: digits → False := by
    intro first second
    have isZero : c = '0' := (f.letter_eq (by decide) c).1 first
    cases r with
    | nil => cases second
    | cons d r =>
        obtain ⟨head, -⟩ := List.cons.inj second
        rcases (marker d).1 (head ▸ is) with rfl | rfl
        · exact lower r isZero rfl
        · exact upper r isZero rfl
  have begins (c : Char) (r : List Char) :
      (render f c).isDigit = true ∨ render f c = '.' ∧ (render f r).head?.any Char.isDigit = true ↔
        c.isDigit = true ∨ c = '.' ∧ r.head?.any Char.isDigit = true := by
    rw [head?_render f f.isDigit_letter, show (render f c).isDigit = c.isDigit from
      f.isDigit_letter c, show render f c = '.' ↔ c = '.' from f.letter_eq (by decide) c]
  fun_cases number? c r with
  | case1 digits => exact marked (.inl rfl) digits
  | case2 digits => exact marked (.inr rfl) digits
  | case3 c r isNumber noLower noUpper =>
      rw [number?, if_pos ((begins c r).2 isNumber), ← render_cons, number_render,
        if_pos isNumber]
      · rfl
      · exact unmarked noLower noUpper 'x' (.inl rfl)
      · exact unmarked noLower noUpper 'X' (.inr rfl)
  | case4 c r noNumber noLower noUpper =>
      rw [number?, if_neg (mt (begins c r).1 noNumber), if_neg noNumber]
      · rfl
      · exact unmarked noLower noUpper 'x' (.inl rfl)
      · exact unmarked noLower noUpper 'X' (.inr rfl)

theorem separatorTail?_render (r : List Char) :
    separatorTail? (render f r) = render f (separatorTail? r) := by
  have semicolon (c : Char) : render f c = ';' ↔ c = ';' := f.letter_eq (by decide) c
  have stays : render f ';' = ';' := (semicolon ';').2 rfl
  unfold separatorTail?
  simp only [takeWhile_render f (p := (· != '\n')) (inLine_letter f),
    dropWhile_render f f.isBlank_letter, takeWhile_render f f.isBlank_letter]
  cases ((r.takeWhile (· != '\n')).dropWhile Text.isBlank) with
  | nil => rfl
  | cons c more =>
      have blank : (render f more).all Text.isBlank = more.all Text.isBlank := by
        rw [render_list, List.all_map]
        exact congrArg more.all (funext f.isBlank_letter)
      simp only [render_cons, semicolon, blank]
      split
      · rw [render_some, render_append, render_cons, render_nil, stays]
      · rfl

theorem word_render (lineIsBlank : Bool) (text rest : List Char) :
    word lineIsBlank (render f text) (render f rest) = render f (word lineIsBlank text rest) := by
  have lower : Text.sameAsciiCase (render f text) ['g', 'o'] =
      Text.sameAsciiCase text ['g', 'o'] := by
    rw [Text.sameAsciiCase, render_list, List.map_map,
      show Char.toLower ∘ render f = Char.toLower from funext f.toLower_letter]
    rfl
  have upper : Keyword.ofWord? (String.ofList (render f text)) =
      Keyword.ofWord? (String.ofList text) := by
    have same : (String.ofList (render f text)).toUpper = (String.ofList text).toUpper := by
      apply String.toList_injective
      rw [String.toUpper, String.toUpper, String.toList_map, String.toList_map,
        String.toList_ofList, String.toList_ofList, render_list, List.map_map,
        show Char.toUpper ∘ render f = Char.toUpper from funext f.toUpper_letter]
    rw [Keyword.ofWord?, same]
    rfl
  have tail : (if lineIsBlank && Text.sameAsciiCase text ['g', 'o'] then
        render f (separatorTail? rest) else none) =
      render f (if lineIsBlank && Text.sameAsciiCase text ['g', 'o'] then
        separatorTail? rest else none) := by
    split <;> rfl
  unfold word
  rw [lower, separatorTail?_render, upper, tail]
  cases (if lineIsBlank && Text.sameAsciiCase text ['g', 'o'] then separatorTail? rest
      else none) with
  | none =>
      rw [render_none]
      cases Keyword.ofWord? (String.ofList text) <;> rfl
  | some tail =>
      rw [render_some, render_cut, render_append]
      have length : (render f tail).length = tail.length := List.length_map _
      simp only [length]
      exact congrArg (Cut.mk _ _) List.map_drop.symm

theorem word?_render (lineIsBlank : Bool) (c : Char) (r : List Char) :
    word? lineIsBlank (render f c) (render f r) = render f (word? lineIsBlank c r) := by
  unfold word?
  rw [show startsWord (render f c) = startsWord c from startsWord_render f c]
  split
  · rw [takeWhile_render f (continuesWord_render f), dropWhile_render f (continuesWord_render f),
      ← render_cons, word_render]
    rfl
  · rfl

theorem cut_render (lineIsBlank : Bool) (c : Char) (r : List Char) :
    cut lineIsBlank (render f c) (render f r) = render f (cut lineIsBlank c r) := by
  have orElse (a b : Option Cut) : (render f a <|> render f b) = render f (a <|> b) := by
    cases a <;> rfl
  have getD (a? : Option Cut) (a : Cut) :
      (render f a?).getD (render f a) = render f (a?.getD a) := by
    cases a? <;> rfl
  unfold cut
  simp only [blank?_render, comment?_render, quoted?_render, number?_render, variableName?_render,
    word?_render, sign_render, orElse, getD]

theorem keepsLineBlank_render (lineIsBlank : Bool) (text : List Char) :
    keepsLineBlank lineIsBlank (render f text) = keepsLineBlank lineIsBlank text := by
  have lineFeed (c : Char) : (render f c == '\n') = (c == '\n') :=
    f.letter_blind (p := (· == '\n')) (by decide) c
  induction text generalizing lineIsBlank with
  | nil => rfl
  | cons c text ih =>
      have step := ih (c == '\n' || (lineIsBlank && Text.isBlank c))
      rw [keepsLineBlank, render_cons, List.foldl_cons, lineFeed,
        show Text.isBlank (render f c) = Text.isBlank c from f.isBlank_letter c]
      exact step

theorem after_render (place : Location) (text : List Char) :
    place.after (render f text) = place.after text := by
  have lineFeed (c : Char) : render f c = '\n' ↔ c = '\n' := f.letter_eq (by decide) c
  have size (c : Char) : (render f c).utf8Size = c.utf8Size := f.utf8Size_letter c
  induction text generalizing place with
  | nil => rfl
  | cons c text ih =>
      have step : place.step (render f c) = place.step c := by
        simp only [Location.step, lineFeed, size]
      rw [render_cons, Location.after_cons, Location.after_cons, step, ih]

theorem token?_render (piece : Piece) : (render f piece).token? = render f piece.token? := by
  have text : String.ofList (render f piece.text) = render f (String.ofList piece.text) :=
    (render_ofList f piece.text).symm
  obtain ⟨kind, cs, place⟩ := piece
  cases kind with
  | token kind => exact congrArg (fun text => some (Token.mk kind text (f.place place))) text
  | fault fault => exact congrArg (fun text => some (Token.mk .unknown text (f.place place))) text
  | _ => rfl

theorem diagnostic?_render (piece : Piece) :
    (render f piece).diagnostic? = render f piece.diagnostic? := by
  obtain ⟨kind, cs, place⟩ := piece
  cases kind <;> rfl

section Kept

variable {f : Rendition} (kept : ∀ place, f.place place = place)

include kept

theorem chain_render (place : Location) (lineIsBlank : Bool) (cs : List Char) :
    chain place lineIsBlank (render f cs) = render f (chain place lineIsBlank cs) := by
  fun_induction chain place lineIsBlank cs with
  | case1 => rw [render_nil, chain, render_nil]
  | case2 place lineIsBlank c r first ih =>
      have here : Piece.mk (render f first.kind) (render f first.text) place =
          render f (Piece.mk first.kind first.text place) :=
        congrArg (Piece.mk _ _) (kept place).symm
      have behind : chain (place.after (render f first.text))
          (keepsLineBlank lineIsBlank (render f first.text)) (render f first.rest) =
            render f (chain (place.after first.text) (keepsLineBlank lineIsBlank first.text)
              first.rest) := by
        rw [after_render, keepsLineBlank_render, ih]
      rw [render_cons, chain, cut_render, render_cons, ← here, ← behind]
      rfl

end Kept

theorem filterMap_render [Renderable α] {g : Piece → Option α}
    (same : ∀ piece, g (render f piece) = render f (g piece)) (pieces : List Piece) :
    (render f pieces).filterMap g = render f (pieces.filterMap g) := by
  induction pieces with
  | nil => rfl
  | cons piece pieces ih =>
      rw [render_cons, List.filterMap_cons, List.filterMap_cons, same, ih]
      cases g piece <;> rfl

end Piece

theorem TokenStream.ofTextAt_render {f : Rendition} (kept : ∀ place, f.place place = place)
    (origin : Location) (text : String) :
    ofTextAt origin (render f text) = render f (ofTextAt origin text) := by
  have cs : (render f text).toList = render f text.toList := toList_render f text
  have stop : render f (Token.endOfInput (origin.after text.toList)) =
      Token.endOfInput (origin.after text.toList) := by
    rw [Token.render_endOfInput, kept]
  unfold ofTextAt
  rw [cs, Piece.chain_render kept, Piece.after_render]
  dsimp only
  rw [Piece.filterMap_render f (Piece.token?_render f),
    Piece.filterMap_render f (Piece.diagnostic?_render f)]
  have tokens := render_append f ((Piece.chain origin true text.toList).filterMap Piece.token?)
    [Token.endOfInput (origin.after text.toList)]
  rw [render_cons, render_nil, stop] at tokens
  exact congrArg (TokenStream.mk · _) tokens.symm

end QueryNames
