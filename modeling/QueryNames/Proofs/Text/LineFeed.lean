import QueryNames.TokenStream

/-!
Texts before a line feed. Main statement: a line feed and a closing parenthesis behind a text leave
its tokens as they are, if nothing in it is faulty and it holds no batch separator.
-/

namespace QueryNames.Piece

theorem takeWhile_lineFeed {p : Char → Bool} (stops : p '\n' = false) (r more : List Char) :
    (r ++ '\n' :: more).takeWhile p = r.takeWhile p := by
  induction r with
  | nil => simp [stops]
  | cons c r ih => cases keeps : p c <;> simp [keeps, ih]

theorem dropWhile_lineFeed {p : Char → Bool} (stops : p '\n' = false) (r more : List Char) :
    (r ++ '\n' :: more).dropWhile p = r.dropWhile p ++ '\n' :: more := by
  induction r with
  | nil => simp [stops]
  | cons c r ih => cases keeps : p c <;> simp [keeps, ih]

/-- The same cut of a text that goes on. -/
def Cut.before (cut : Cut) (more : List Char) : Cut := { cut with rest := cut.rest ++ more }

theorem Cut.run_lineFeed {kind : Kind} {begun r more : List Char} {p : Char → Bool}
    (stops : p '\n' = false) :
    run kind begun p (r ++ '\n' :: more) = (run kind begun p r).before ('\n' :: more) := by
  simp [run, before, takeWhile_lineFeed stops, dropWhile_lineFeed stops]

/-- Neither faulty nor the end of a batch. -/
def Kind.isWhole : Kind → Bool
  | .unclosedComment | .fault _ | .token .batchSeparator => false
  | _ => true

/-- The piece comes to its own end, and not to the end of the text only. -/
def Kind.isClosed : Kind → Bool
  | .unclosedComment | .fault .unclosedString | .fault (.unclosedIdentifier _) => false
  | _ => true

theorem Kind.isClosed_of_isWhole {kind : Kind} (whole : kind.isWhole = true) :
    kind.isClosed = true := by
  unfold isWhole at whole
  split at whole <;> simp_all [isClosed]

/-! Comments and quoted texts. -/

/-- What a character is to a comment is told by the one behind it, whatever follows. -/
theorem splitComment_pair {depth : Nat} {c d : Char} {r : List Char}
    (noOpening : ∀ r', c = '/' → d :: r = '*' :: r' → False)
    (noEnd : ∀ r', depth = 0 → c = '*' → d :: r = '/' :: r' → False)
    (noClosing : ∀ outer r', depth = outer + 1 → c = '*' → d :: r = '/' :: r' → False)
    (more : List Char) :
    splitComment depth (c :: d :: more) =
      (splitComment depth (d :: more)).map fun (text, rest) => (c :: text, rest) := by
  rw [splitComment]
  · intro r' slash same
    exact noOpening r slash (by rw [(List.cons.inj same).1])
  · intro r' outside star same
    exact noEnd r outside star (by rw [(List.cons.inj same).1])
  · intro outer r' inside star same
    exact noClosing outer r inside star (by rw [(List.cons.inj same).1])

theorem splitComment_append_right {depth : Nat} {cs text rest : List Char} (more : List Char)
    (split : splitComment depth cs = some (text, rest)) :
    splitComment depth (cs ++ more) = some (text, rest ++ more) := by
  fun_induction splitComment depth cs generalizing text rest with
  | case1 depth r ih =>
      obtain ⟨⟨a, b⟩, inner, same⟩ := Option.map_eq_some_iff.1 split
      cases same
      simp [splitComment, ih inner]
  | case2 r =>
      cases split
      rfl
  | case3 depth r ih =>
      obtain ⟨⟨a, b⟩, inner, same⟩ := Option.map_eq_some_iff.1 split
      cases same
      simp [splitComment, ih inner]
  | case4 depth c r noOpening noEnd noClosing ih =>
      obtain ⟨⟨a, b⟩, inner, same⟩ := Option.map_eq_some_iff.1 split
      cases same
      cases r with
      | nil => cases inner
      | cons d r =>
          have longer := ih inner
          rw [List.cons_append] at longer
          rw [List.cons_append, List.cons_append, splitComment_pair noOpening noEnd noClosing,
            longer]
          rfl
  | case5 => cases split

theorem comment?_lineFeed {c : Char} {r more : List Char}
    (closed : ∀ cut, comment? c r = some cut → cut.kind.isClosed = true) :
    comment? c (r ++ '\n' :: more) = (comment? c r).map (·.before ('\n' :: more)) := by
  fun_cases comment? c r with
  | case1 r => exact congrArg some (Cut.run_lineFeed rfl)
  | case2 r text rest split =>
      simp [comment?, splitComment_append_right _ split, Cut.before]
  | case3 r split =>
      have never := closed ⟨.unclosedComment, '/' :: '*' :: r, []⟩ (by rw [comment?, split])
      cases never
  | case4 c r noLine noBlock =>
      cases r with
      | nil => simp [comment?]
      | cons d r =>
          rw [comment?.eq_def]
          split
          · rename_i same
            exact absurd (by rw [(List.cons.inj same).1]) (noLine r rfl)
          · rename_i same
            exact absurd (by rw [(List.cons.inj same).1]) (noBlock r rfl)
          · rfl

/-- No quote closes with a line feed, so none is doubled by one. -/
theorem splitQuoted_lineFeed {close : Char} (other : close ≠ '\n') {cs text rest : List Char}
    (more : List Char) (split : splitQuoted close cs = some (text, rest)) :
    splitQuoted close (cs ++ '\n' :: more) = some (text, rest ++ '\n' :: more) := by
  fun_induction splitQuoted close cs generalizing text rest with
  | case1 => cases split
  | case2 =>
      cases split
      simp [splitQuoted, other.symm]
  | case3 => cases split
  | case4 r ih =>
      obtain ⟨⟨a, b⟩, inner, same⟩ := Option.map_eq_some_iff.1 split
      cases same
      simp [splitQuoted, ih inner]
  | case5 d r single =>
      cases split
      simp [splitQuoted, single]
  | case6 c d r unquoted ih =>
      obtain ⟨⟨a, b⟩, inner, same⟩ := Option.map_eq_some_iff.1 split
      cases same
      have longer := ih inner
      rw [List.cons_append] at longer
      simp [splitQuoted, unquoted, longer]

theorem delimited_lineFeed {opening close : Char} (other : close ≠ '\n') {r more : List Char}
    (closed : (delimited opening close r).kind.isClosed = true) :
    delimited opening close (r ++ '\n' :: more) =
      (delimited opening close r).before ('\n' :: more) := by
  rcases split : splitQuoted close r with _ | ⟨text, rest⟩
  · simp [delimited, split, Kind.isClosed] at closed
  · simp [delimited, split, splitQuoted_lineFeed other more split, Cut.before]

theorem string_lineFeed {opening r more : List Char}
    (closed : (string opening r).kind.isClosed = true) :
    string opening (r ++ '\n' :: more) = (string opening r).before ('\n' :: more) := by
  rcases split : splitQuoted '\'' r with _ | ⟨text, rest⟩
  · simp [string, split, Kind.isClosed] at closed
  · simp [string, split, splitQuoted_lineFeed (by decide) more split, Cut.before]

theorem quoted?_lineFeed {c : Char} {r more : List Char}
    (closed : ∀ cut, quoted? c r = some cut → cut.kind.isClosed = true) :
    quoted? c (r ++ '\n' :: more) = (quoted? c r).map (·.before ('\n' :: more)) := by
  fun_cases quoted? c r with
  | case1 r => exact congrArg some (delimited_lineFeed (by decide) (closed _ rfl))
  | case2 r => exact congrArg some (delimited_lineFeed (by decide) (closed _ rfl))
  | case3 r => exact congrArg some (string_lineFeed (closed _ rfl))
  | case4 r => exact congrArg some (string_lineFeed (closed _ rfl))
  | case5 r => exact congrArg some (string_lineFeed (closed _ rfl))
  | case6 c r noBracket noDouble noSingle noUpper noLower =>
      cases r with
      | nil => simp_all [quoted?]
      | cons d r =>
          rw [quoted?.eq_def]
          split
          · exact absurd rfl noBracket
          · exact absurd rfl noDouble
          · exact absurd rfl noSingle
          · rename_i same
            exact absurd (by rw [(List.cons.inj same).1]) (noUpper r rfl)
          · rename_i same
            exact absurd (by rw [(List.cons.inj same).1]) (noLower r rfl)
          · rfl

/-! Numbers. -/

theorem isDigit_lineFeed : Char.isDigit '\n' = false := rfl

theorem splitFraction_lineFeed (r more : List Char) :
    splitFraction (r ++ '\n' :: more) =
      ((splitFraction r).1, (splitFraction r).2 ++ '\n' :: more) := by
  cases r with
  | nil => simp [splitFraction]
  | cons c r =>
      by_cases point : c = '.'
      · subst point
        simp [splitFraction, takeWhile_lineFeed isDigit_lineFeed,
          dropWhile_lineFeed isDigit_lineFeed]
      · simp [splitFraction, point]

theorem splitSign_lineFeed (r more : List Char) :
    splitSign (r ++ '\n' :: more) = ((splitSign r).1, (splitSign r).2 ++ '\n' :: more) := by
  cases r with
  | nil => simp [splitSign]
  | cons c r =>
      by_cases plus : c = '+'
      · subst plus
        rfl
      · by_cases minus : c = '-'
        · subst minus
          rfl
        · simp [splitSign, plus, minus]

theorem head?_lineFeed {p : Char → Bool} (stops : p '\n' = false) (r more : List Char) :
    (r ++ '\n' :: more).head?.any p = r.head?.any p := by
  cases r with
  | nil => simp [stops]
  | cons c r => rfl

theorem splitExponent_lineFeed (r more : List Char) :
    splitExponent (r ++ '\n' :: more) =
      ((splitExponent r).1, (splitExponent r).2 ++ '\n' :: more) := by
  cases r with
  | nil => simp [splitExponent]
  | cons c r =>
      simp only [List.cons_append, splitExponent, splitSign_lineFeed,
        head?_lineFeed isDigit_lineFeed]
      split
      · simp [takeWhile_lineFeed isDigit_lineFeed, dropWhile_lineFeed isDigit_lineFeed]
      · simp

theorem number_lineFeed (r more : List Char) :
    number (r ++ '\n' :: more) = (number r).before ('\n' :: more) := by
  simp [number, Cut.before, takeWhile_lineFeed isDigit_lineFeed,
    dropWhile_lineFeed isDigit_lineFeed, splitFraction_lineFeed, splitExponent_lineFeed]

theorem number?_lineFeed (c : Char) (r more : List Char) :
    number? c (r ++ '\n' :: more) = (number? c r).map (·.before ('\n' :: more)) := by
  have decimal : (if c.isDigit ∨ (c = '.' ∧ (r ++ '\n' :: more).head?.any Char.isDigit) then
      some (number (c :: (r ++ '\n' :: more))) else none) =
      (if c.isDigit ∨ (c = '.' ∧ r.head?.any Char.isDigit) then some (number (c :: r))
        else none).map (·.before ('\n' :: more)) := by
    rw [head?_lineFeed isDigit_lineFeed, ← List.cons_append, number_lineFeed]
    split <;> rfl
  have goesOn (noLower : ∀ digits, c = '0' → r = 'x' :: digits → False)
      (noUpper : ∀ digits, c = '0' → r = 'X' :: digits → False) :
      number? c (r ++ '\n' :: more) =
        if c.isDigit ∨ (c = '.' ∧ (r ++ '\n' :: more).head?.any Char.isDigit) then
          some (number (c :: (r ++ '\n' :: more))) else none := by
    cases r with
    | nil => simp [number?]
    | cons d r =>
        rw [number?.eq_def]
        split
        · rename_i same
          exact absurd (by rw [(List.cons.inj same).1]) (noLower r rfl)
        · rename_i same
          exact absurd (by rw [(List.cons.inj same).1]) (noUpper r rfl)
        · rfl
  fun_cases number? c r with
  | case1 digits => exact congrArg some (Cut.run_lineFeed rfl)
  | case2 digits => exact congrArg some (Cut.run_lineFeed rfl)
  | case3 _ _ starts noLower noUpper => rw [goesOn noLower noUpper, decimal, if_pos starts]
  | case4 _ _ starts noLower noUpper => rw [goesOn noLower noUpper, decimal, if_neg starts]

/-! Words and variables. -/

theorem continuesWord_lineFeed : continuesWord '\n' = false := by decide +kernel

theorem named_lineFeed (begun r more : List Char) :
    named begun (r ++ '\n' :: more) = (named begun r).before ('\n' :: more) := by
  rw [named, named, head?_lineFeed continuesWord_lineFeed]
  split
  · exact Cut.run_lineFeed continuesWord_lineFeed
  · rfl

theorem variableName?_lineFeed (c : Char) (r more : List Char) :
    variableName? c (r ++ '\n' :: more) =
      (variableName? c r).map (·.before ('\n' :: more)) := by
  fun_cases variableName? c r with
  | case1 r => exact congrArg some (named_lineFeed _ r more)
  | case2 r single =>
      cases r with
      | nil => exact congrArg some (named_lineFeed _ [] more)
      | cons d r =>
          rw [variableName?.eq_def]
          split
          · rename_i same
            exact absurd (by rw [(List.cons.inj same).1]) (single r)
          · exact congrArg some (named_lineFeed _ (d :: r) more)
          · rename_i other _
            exact (other rfl).elim
  | case3 c r noDouble noSingle =>
      rw [variableName?.eq_def]
      split
      · exact absurd rfl noSingle
      · exact absurd rfl noSingle
      · rfl

theorem separatorTail?_lineFeed (r more : List Char) :
    separatorTail? (r ++ '\n' :: more) = separatorTail? r := by
  rw [separatorTail?, separatorTail?, takeWhile_lineFeed rfl]

/-- Where a line is less blank a word is no more of a separator. -/
theorem word_lineFeed {lineIsBlank lineIsBlank' : Bool} {text r more : List Char}
    (weaker : lineIsBlank' = true → lineIsBlank = true)
    (same : lineIsBlank' = lineIsBlank ∨
      (word lineIsBlank text r).kind ≠ .token .batchSeparator) :
    word lineIsBlank' text (r ++ '\n' :: more) =
      (word lineIsBlank text r).before ('\n' :: more) := by
  have agree : (if lineIsBlank' && Text.sameAsciiCase text ['g', 'o'] then separatorTail? r
      else none) = (if lineIsBlank && Text.sameAsciiCase text ['g', 'o'] then separatorTail? r
      else none) := by
    rcases same with rfl | noSeparator
    · rfl
    · cases blank : lineIsBlank' with
      | true => rw [weaker blank]
      | false =>
          rcases tail : (if lineIsBlank && Text.sameAsciiCase text ['g', 'o'] then
              separatorTail? r else none) with _ | tail?
          · rfl
          · rw [word, tail] at noSeparator
            contradiction
  rw [word, word, separatorTail?_lineFeed, agree]
  rcases tail : (if lineIsBlank && Text.sameAsciiCase text ['g', 'o'] then separatorTail? r
      else none) with _ | tail?
  · dsimp only
    split <;> rfl
  · have found : separatorTail? r = some tail? := by
      simp only [Option.ite_none_right_eq_some] at tail
      exact tail.2
    have fits : tail?.length ≤ r.length := by
      rw [← separatorTail?_append found, List.length_append]
      exact Nat.le_add_right _ _
    simp [Cut.before, List.drop_append_of_le_length fits]

theorem word?_lineFeed {lineIsBlank lineIsBlank' : Bool} {c : Char} {r more : List Char}
    (weaker : lineIsBlank' = true → lineIsBlank = true)
    (same : lineIsBlank' = lineIsBlank ∨
      ∀ cut, word? lineIsBlank c r = some cut → cut.kind ≠ .token .batchSeparator) :
    word? lineIsBlank' c (r ++ '\n' :: more) =
      (word? lineIsBlank c r).map (·.before ('\n' :: more)) := by
  rw [word?, word?, takeWhile_lineFeed continuesWord_lineFeed,
    dropWhile_lineFeed continuesWord_lineFeed]
  by_cases starts : startsWord c = true
  · rw [if_pos starts, if_pos starts]
    exact congrArg some (word_lineFeed weaker (same.imp_right fun noSeparator =>
      noSeparator _ (by rw [word?, if_pos starts])))
  · rw [if_neg starts, if_neg starts]
    rfl

/-! Signs and whole cuts. -/

theorem sign_lineFeed (c : Char) (r more : List Char) :
    sign c (r ++ '\n' :: more) = (sign c r).before ('\n' :: more) := by
  fun_cases sign c r
  case case10 =>
    cases r with
    | nil => rfl
    | cons d r => simp_all [sign, Cut.before]
  case case12 =>
    cases r with
    | nil => rfl
    | cons d r => simp_all [sign, Cut.before]
  case case24 =>
    cases r with
    | nil => simp_all [sign, Cut.before]
    | cons d r => simp_all [sign, Cut.before]
  all_goals rfl

theorem blank?_append {c : Char} {r : List Char} (more : List Char)
    (stops : r.dropWhile Text.isBlank ≠ []) :
    blank? c (r ++ more) = (blank? c r).map (·.before more) := by
  have shorter : (r.takeWhile Text.isBlank).length ≠ r.length := by
    intro same
    have whole :=
      congrArg List.length (List.takeWhile_append_dropWhile (p := Text.isBlank) (l := r))
    rw [List.length_append] at whole
    exact stops (List.eq_nil_of_length_eq_zero (by omega))
  rw [blank?, blank?]
  split
  · simp [Cut.run, Cut.before, List.takeWhile_append, List.dropWhile_append, shorter, stops]
  · rfl

theorem orElse_before {a a' b b' : Option Cut} {d d' : Cut} {more : List Char} {P : Prop}
    {kind : Kind} (closed : ((a <|> b).getD d).kind.isClosed = true)
    (kept : P ∨ ((a <|> b).getD d).kind ≠ kind)
    (first : (∀ cut, a = some cut → cut.kind.isClosed = true) → a' = a.map (·.before more))
    (rest : (b.getD d).kind.isClosed = true → P ∨ (b.getD d).kind ≠ kind →
      b'.getD d' = (b.getD d).before more) :
    (a' <|> b').getD d' = ((a <|> b).getD d).before more := by
  cases a with
  | none =>
      obtain rfl : a' = none := first nofun
      exact rest closed kept
  | some cut =>
      obtain rfl : a' = some (cut.before more) := first fun other same => by
        obtain rfl := Option.some.inj same
        exact closed
      rfl

/-- The first piece is the same before a line feed, unless it is white space that goes up to it. -/
theorem cut_lineFeed {lineIsBlank lineIsBlank' : Bool} {c : Char} {r more : List Char}
    (closed : (cut lineIsBlank c r).kind.isClosed = true)
    (weaker : lineIsBlank' = true → lineIsBlank = true)
    (same : lineIsBlank' = lineIsBlank ∨ (cut lineIsBlank c r).kind ≠ .token .batchSeparator)
    (stops : Text.isBlank c = true → r.dropWhile Text.isBlank ≠ []) :
    cut lineIsBlank' c (r ++ '\n' :: more) =
      (cut lineIsBlank c r).before ('\n' :: more) := by
  refine orElse_before closed same (fun _ => ?_) fun closed same => ?_
  · by_cases blank : Text.isBlank c = true
    · exact blank?_append _ (stops blank)
    · rw [blank?, blank?, if_neg blank, if_neg blank]
      rfl
  · refine orElse_before closed same comment?_lineFeed fun closed same => ?_
    refine orElse_before closed same quoted?_lineFeed fun closed same => ?_
    refine orElse_before closed same (fun _ => number?_lineFeed c r more) fun closed same => ?_
    refine orElse_before closed same (fun _ => variableName?_lineFeed c r more) fun _ same => ?_
    have found : word? lineIsBlank' c (r ++ '\n' :: more) =
        (word? lineIsBlank c r).map (·.before ('\n' :: more)) := by
      apply word?_lineFeed weaker
      refine same.imp_right fun noSeparator cut is => ?_
      rwa [is] at noSeparator
    rw [found]
    cases word? lineIsBlank c r with
    | none => exact sign_lineFeed c r more
    | some cut => rfl

/-- White space up to a line feed goes on through it. -/
theorem cut_blank_lineFeed {lineIsBlank : Bool} {c d : Char} {r more : List Char}
    (blank : Text.isBlank c = true) (all : r.dropWhile Text.isBlank = [])
    (stops : Text.isBlank d = false) :
    cut lineIsBlank c (r ++ '\n' :: d :: more) = ⟨.blank, c :: r ++ ['\n'], d :: more⟩ := by
  have taken : r.takeWhile Text.isBlank = r := by
    have whole := List.takeWhile_append_dropWhile (p := Text.isBlank) (l := r)
    rwa [all, List.append_nil] at whole
  have feed : Text.isBlank '\n' = true := rfl
  rw [cut, blank?, if_pos blank]
  simp [Cut.run, List.takeWhile_append, List.dropWhile_append, taken, all, feed, stops]

/-! Whole texts. -/

theorem keepsLineBlank_mono {lineIsBlank lineIsBlank' : Bool} (text : List Char)
    (weaker : lineIsBlank' = true → lineIsBlank = true) :
    keepsLineBlank lineIsBlank' text = true → keepsLineBlank lineIsBlank text = true := by
  unfold keepsLineBlank
  induction text generalizing lineIsBlank lineIsBlank' with
  | nil => exact weaker
  | cons c text ih =>
      refine ih fun blank => ?_
      simp only [Bool.or_eq_true, Bool.and_eq_true] at blank ⊢
      rcases blank with feed | ⟨before, blank⟩
      · exact .inl feed
      · exact .inr ⟨weaker before, blank⟩

theorem keepsLineBlank_lineFeed (lineIsBlank : Bool) (text : List Char) :
    keepsLineBlank lineIsBlank (text ++ ['\n']) = true := by
  simp [keepsLineBlank]

/-- Kind and text of the token of a piece. -/
def face? (piece : Piece) : Option (TokenKind × String) :=
  piece.token?.map fun t => (t.kind, t.text)

/-- The tokens of some pieces without their places. -/
def faces (pieces : List Piece) : List (TokenKind × String) := pieces.filterMap face?

theorem face?_moved (kind : Kind) (text : List Char) (place place' : Location) :
    face? ⟨kind, text, place⟩ = face? ⟨kind, text, place'⟩ := by
  cases kind <;> rfl

theorem faces_cons {kind : Kind} {text : List Char} (place place' : Location)
    {pieces pieces' : List Piece} (same : faces pieces = faces pieces') :
    faces (⟨kind, text, place⟩ :: pieces) = faces (⟨kind, text, place'⟩ :: pieces') := by
  unfold faces at same ⊢
  rw [List.filterMap_cons, List.filterMap_cons, face?_moved kind text place place', same]

/-- Before a line feed with something behind it a text has the tokens that it has alone. -/
theorem chain_lineFeed {place place' : Location} {lineIsBlank lineIsBlank' : Bool} {cs : List Char}
    {d : Char} {more : List Char}
    (whole : ∀ piece ∈ chain place lineIsBlank cs, piece.kind.isWhole = true)
    (weaker : lineIsBlank' = true → lineIsBlank = true) (stops : Text.isBlank d = false) :
    ∃ front, chain place' lineIsBlank' (cs ++ '\n' :: d :: more) =
        front ++ chain (place'.after (cs ++ ['\n'])) true (d :: more) ∧
      faces front = faces (chain place lineIsBlank cs) := by
  fun_induction chain place lineIsBlank cs generalizing place' lineIsBlank' with
  | case1 place lineIsBlank =>
      have feed : Text.isBlank '\n' = true := rfl
      have first : cut lineIsBlank' '\n' (d :: more) = ⟨.blank, ['\n'], d :: more⟩ := by
        rw [cut, blank?, if_pos feed]
        simp [Cut.run, stops]
      refine ⟨[⟨.blank, ['\n'], place'⟩], ?_, rfl⟩
      rw [List.nil_append, chain, first]
      rfl
  | case2 place lineIsBlank c r first =>
      rename_i ih
      have wholeFirst : first.kind.isWhole = true := whole _ List.mem_cons_self
      have wholeRest := fun piece member => whole piece (List.mem_cons_of_mem _ member)
      have split := cut_splits lineIsBlank c r
      by_cases blank : Text.isBlank c = true ∧ r.dropWhile Text.isBlank = []
      · have longer := @cut_blank_lineFeed lineIsBlank' c d r more blank.1 blank.2 stops
        have short : first = ⟨.blank, c :: r, []⟩ := by
          have taken := List.takeWhile_append_dropWhile (p := Text.isBlank) (l := r)
          rw [blank.2, List.append_nil] at taken
          show cut lineIsBlank c r = _
          rw [cut, blank?, if_pos blank.1]
          simp [Cut.run, blank.2, taken]
        refine ⟨[⟨.blank, c :: r ++ ['\n'], place'⟩], ?_, ?_⟩
        · rw [List.cons_append, chain, longer]
          dsimp only
          rw [keepsLineBlank_lineFeed]
          rfl
        · rw [short, chain]
          rfl
      · have longer := @cut_lineFeed lineIsBlank lineIsBlank' c r (d :: more)
          (Kind.isClosed_of_isWhole wholeFirst) weaker
          (.inr fun separates => by simp [first, separates, Kind.isWhole] at wholeFirst)
          fun isBlank none_ => blank ⟨isBlank, none_⟩
        obtain ⟨front, chained, same⟩ := ih wholeRest (keepsLineBlank_mono first.text weaker)
        refine ⟨⟨first.kind, first.text, place'⟩ :: front, ?_, faces_cons _ _ same⟩
        have behind : place'.after (c :: r ++ ['\n']) =
            (place'.after first.text).after (first.rest ++ ['\n']) := by
          rw [← split.append, List.append_assoc, Location.after_append]
        rw [List.cons_append, chain, longer, behind, List.cons_append, ← chained]
        rfl

end QueryNames.Piece
