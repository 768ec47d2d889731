import QueryNames.Diagnostic
import QueryNames.Text.Blank
import QueryNames.Text.Letter
import QueryNames.Text.Lowercase

/-!
A query text is a chain of pieces: runs of white space, comments, tokens and faulty stretches.
`Piece.cut` cuts off the first one. Main statement: a cut loses nothing and takes at least one
character.
-/

namespace QueryNames.Piece

inductive Kind where
  | blank
  | lineComment
  | blockComment
  | unclosedComment
  | token (kind : TokenKind)
  | fault (fault : Fault)
  deriving DecidableEq, Repr

/-- The first piece of a text and what follows it. -/
structure Cut where
  kind : Kind
  text : List Char
  rest : List Char

/-- A cut of `cs`: both parts make up `cs`, and the first is not empty. -/
structure Cut.Splits (cut : Cut) (cs : List Char) : Prop where
  text_ne_nil : cut.text ≠ []
  append : cut.text ++ cut.rest = cs

theorem Cut.Splits.length_lt {cut : Cut} {cs : List Char} (h : cut.Splits cs) :
    cut.rest.length < cs.length := by
  rw [← h.append, List.length_append]
  have := List.length_pos_iff.2 h.text_ne_nil
  omega

/-- The piece that goes from `begun` through all characters in `p`. -/
def Cut.run (kind : Kind) (begun : List Char) (p : Char → Bool) (rest : List Char) : Cut :=
  ⟨kind, begun ++ rest.takeWhile p, rest.dropWhile p⟩

theorem Cut.run_splits (kind : Kind) (begun : List Char) (p : Char → Bool) (rest : List Char)
    (h : begun ≠ []) : (run kind begun p rest).Splits (begun ++ rest) :=
  ⟨by simp [run, h], by simp [run]⟩

/-! Comments. -/

/-- Splits behind the end of a block comment inside of which `depth` more are open. -/
def splitComment : Nat → List Char → Option (List Char × List Char)
  | depth, '/' :: '*' :: r =>
      (splitComment (depth + 1) r).map fun (text, rest) => ('/' :: '*' :: text, rest)
  | 0, '*' :: '/' :: r => some (['*', '/'], r)
  | depth + 1, '*' :: '/' :: r =>
      (splitComment depth r).map fun (text, rest) => ('*' :: '/' :: text, rest)
  | depth, c :: r => (splitComment depth r).map fun (text, rest) => (c :: text, rest)
  | _, [] => none

theorem splitComment_append {depth : Nat} {cs text rest : List Char}
    (h : splitComment depth cs = some (text, rest)) : text ++ rest = cs := by
  fun_induction splitComment depth cs generalizing text rest with
  | case2 => cases h; rfl
  | case5 => cases h
  | case1 _ _ ih | case3 _ _ ih | case4 _ _ _ _ _ _ ih =>
    obtain ⟨⟨a, b⟩, hab, heq⟩ := Option.map_eq_some_iff.1 h
    cases heq
    simp [ih hab]

def comment? : Char → List Char → Option Cut
  | '-', '-' :: r => some (.run .lineComment ['-', '-'] (· != '\n') r)
  | '/', '*' :: r =>
      match splitComment 0 r with
      | some (text, rest) => some ⟨.blockComment, '/' :: '*' :: text, rest⟩
      | none => some ⟨.unclosedComment, '/' :: '*' :: r, []⟩
  | _, _ => none

/-! Quoted texts, in which a doubled closing character stands for itself. -/

/-- Splits behind the first `close` that is not doubled. -/
def splitQuoted (close : Char) : List Char → Option (List Char × List Char)
  | [] => none
  | [c] => if c = close then some ([c], []) else none
  | c :: d :: r =>
      if c = close then
        if d = close then
          (splitQuoted close r).map fun (text, rest) => (c :: d :: text, rest)
        else some ([c], d :: r)
      else (splitQuoted close (d :: r)).map fun (text, rest) => (c :: text, rest)

theorem splitQuoted_append {close : Char} {cs text rest : List Char}
    (h : splitQuoted close cs = some (text, rest)) : text ++ rest = cs := by
  fun_induction splitQuoted close cs generalizing text rest with
  | case1 | case3 => cases h
  | case2 | case5 => cases h; rfl
  | case4 _ ih | case6 _ _ _ _ ih =>
    obtain ⟨⟨a, b⟩, hab, heq⟩ := Option.map_eq_some_iff.1 h
    cases heq
    simp [ih hab]

def delimited (opening close : Char) (r : List Char) : Cut :=
  match splitQuoted close r with
  | some (text, rest) =>
      ⟨if text = [close] then .fault .emptyIdentifier else .token .identifier,
        opening :: text, rest⟩
  | none => ⟨.fault (.unclosedIdentifier close), opening :: r, []⟩

def string (opening r : List Char) : Cut :=
  match splitQuoted '\'' r with
  | some (text, rest) => ⟨.token .stringLiteral, opening ++ text, rest⟩
  | none => ⟨.fault .unclosedString, opening ++ r, []⟩

def quoted? : Char → List Char → Option Cut
  | '[', r => some (delimited '[' ']' r)
  | '"', r => some (delimited '"' '"' r)
  | '\'', r => some (string ['\''] r)
  | 'N', '\'' :: r => some (string ['N', '\''] r)
  | 'n', '\'' :: r => some (string ['n', '\''] r)
  | _, _ => none

/-! Numbers. -/

def splitFraction : List Char → List Char × List Char
  | '.' :: r => ('.' :: r.takeWhile Char.isDigit, r.dropWhile Char.isDigit)
  | r => ([], r)

def splitSign : List Char → List Char × List Char
  | '+' :: r => (['+'], r)
  | '-' :: r => (['-'], r)
  | r => ([], r)

/-- An exponent needs a digit; without one its letter begins the next piece. -/
def splitExponent : List Char → List Char × List Char
  | [] => ([], [])
  | e :: r =>
      let (sign, digits) := splitSign r
      if (e = 'e' ∨ e = 'E') ∧ digits.head?.any Char.isDigit then
        (e :: sign ++ digits.takeWhile Char.isDigit, digits.dropWhile Char.isDigit)
      else ([], e :: r)

def number (cs : List Char) : Cut :=
  let (fraction, rest) := splitFraction (cs.dropWhile Char.isDigit)
  let (exponent, rest) := splitExponent rest
  ⟨.token .numberLiteral, cs.takeWhile Char.isDigit ++ fraction ++ exponent, rest⟩

theorem splitFraction_append (cs : List Char) :
    (splitFraction cs).1 ++ (splitFraction cs).2 = cs := by
  unfold splitFraction
  split <;> simp

theorem splitSign_append (cs : List Char) : (splitSign cs).1 ++ (splitSign cs).2 = cs := by
  unfold splitSign
  split <;> simp

theorem splitExponent_append (cs : List Char) :
    (splitExponent cs).1 ++ (splitExponent cs).2 = cs := by
  cases cs with
  | nil => rfl
  | cons e r =>
    have := splitSign_append r
    simp only [splitExponent]
    split <;> simp [this]

theorem number_append (cs : List Char) : (number cs).text ++ (number cs).rest = cs := by
  simp [number, splitExponent_append, splitFraction_append]

def number? (c : Char) (r : List Char) : Option Cut :=
  match c, r with
  | '0', 'x' :: digits => some (.run (.token .numberLiteral) ['0', 'x'] Text.isHexDigit digits)
  | '0', 'X' :: digits => some (.run (.token .numberLiteral) ['0', 'X'] Text.isHexDigit digits)
  | _, _ =>
      if c.isDigit ∨ (c = '.' ∧ r.head?.any Char.isDigit) then some (number (c :: r)) else none

/-! Words and variables. -/

def startsWord (c : Char) : Bool := Text.isAlphabetic c || c == '_' || c == '#'

def continuesWord (c : Char) : Bool :=
  Text.isAlphanumeric c || c == '_' || c == '@' || c == '#' || c == '$'

def named (begun r : List Char) : Cut :=
  if r.head?.any continuesWord then .run (.token .variable) begun continuesWord r
  else ⟨.fault .namelessVariable, begun, r⟩

def variableName? : Char → List Char → Option Cut
  | '@', '@' :: r => some (named ['@', '@'] r)
  | '@', r => some (named ['@'] r)
  | _, _ => none

/-- What a separator takes from the rest of its line: nothing but blanks may stand there, and one
semicolon, which belongs to the separator with the blanks before it. -/
def separatorTail? (r : List Char) : Option (List Char) :=
  let line := r.takeWhile (· != '\n')
  match line.dropWhile Text.isBlank with
  | [] => some []
  | c :: more =>
      if c = ';' ∧ more.all Text.isBlank then some (line.takeWhile Text.isBlank ++ [';'])
      else none

theorem separatorTail?_append {r tail : List Char} (h : separatorTail? r = some tail) :
    tail ++ r.drop tail.length = r := by
  refine List.prefix_iff_eq_append.1 ?_
  simp only [separatorTail?] at h
  have hline : (r.takeWhile (· != '\n')) <+: r := List.takeWhile_prefix _
  split at h
  · cases h; exact List.nil_prefix
  · rename_i c more heq
    split at h
    · rename_i hc
      cases h
      refine List.IsPrefix.trans ?_ hline
      refine ⟨more, ?_⟩
      calc
        _ = (r.takeWhile (· != '\n')).takeWhile Text.isBlank ++
            (r.takeWhile (· != '\n')).dropWhile Text.isBlank := by simp [heq, hc.1]
        _ = r.takeWhile (· != '\n') := List.takeWhile_append_dropWhile
    · cases h

def word (lineIsBlank : Bool) (text rest : List Char) : Cut :=
  let tail? :=
    if lineIsBlank && Text.sameAsciiCase text ['g', 'o'] then separatorTail? rest else none
  match tail? with
  | some tail => ⟨.token .batchSeparator, text ++ tail, rest.drop tail.length⟩
  | none =>
      match Keyword.ofWord? (String.ofList text) with
      | some k => ⟨.token (.keyword k), text, rest⟩
      | none => ⟨.token .identifier, text, rest⟩

/-- A word GO is a separator if its line has only blanks before it. -/
def word? (lineIsBlank : Bool) (c : Char) (r : List Char) : Option Cut :=
  if startsWord c then
    some (word lineIsBlank (c :: r.takeWhile continuesWord) (r.dropWhile continuesWord))
  else none

/-! Signs. -/

def sign : Char → List Char → Cut
  | '*', r => ⟨.token .star, ['*'], r⟩
  | ',', r => ⟨.token (.punctuation .comma), [','], r⟩
  | '(', r => ⟨.token (.punctuation .leftParen), ['('], r⟩
  | ')', r => ⟨.token (.punctuation .rightParen), [')'], r⟩
  | '.', r => ⟨.token (.punctuation .period), ['.'], r⟩
  | ';', r => ⟨.token (.punctuation .semicolon), [';'], r⟩
  | '=', r => ⟨.token (.operator .eq), ['='], r⟩
  | '<', '=' :: r => ⟨.token (.operator .ltEq), ['<', '='], r⟩
  | '<', '>' :: r => ⟨.token (.operator .notEq), ['<', '>'], r⟩
  | '<', r => ⟨.token (.operator .lt), ['<'], r⟩
  | '>', '=' :: r => ⟨.token (.operator .gtEq), ['>', '='], r⟩
  | '>', r => ⟨.token (.operator .gt), ['>'], r⟩
  | '!', '=' :: r => ⟨.token (.operator .notEq), ['!', '='], r⟩
  | '!', '<' :: r => ⟨.token (.operator .notLt), ['!', '<'], r⟩
  | '!', '>' :: r => ⟨.token (.operator .notGt), ['!', '>'], r⟩
  | '+', r => ⟨.token (.operator .plus), ['+'], r⟩
  | '-', r => ⟨.token (.operator .minus), ['-'], r⟩
  | '/', r => ⟨.token (.operator .slash), ['/'], r⟩
  | '%', r => ⟨.token (.operator .percent), ['%'], r⟩
  | '&', r => ⟨.token (.operator .ampersand), ['&'], r⟩
  | '|', r => ⟨.token (.operator .pipe), ['|'], r⟩
  | '^', r => ⟨.token (.operator .caret), ['^'], r⟩
  | '~', r => ⟨.token (.operator .tilde), ['~'], r⟩
  | c, r => ⟨.fault (.strayCharacter c), [c], r⟩

/-! The first piece of a text. -/

def blank? (c : Char) (r : List Char) : Option Cut :=
  if Text.isBlank c then some (.run .blank [c] Text.isBlank r) else none

def cut (lineIsBlank : Bool) (c : Char) (r : List Char) : Cut :=
  (blank? c r <|> comment? c r <|> quoted? c r <|> number? c r <|> variableName? c r <|>
    word? lineIsBlank c r).getD (sign c r)

theorem blank?_splits {c : Char} {r : List Char} {cut : Cut} (h : blank? c r = some cut) :
    cut.Splits (c :: r) := by
  simp only [blank?, Option.ite_none_right_eq_some] at h
  obtain ⟨-, h⟩ := h
  cases h
  exact Cut.run_splits _ _ _ _ (by simp)

theorem comment?_splits {c : Char} {r : List Char} {cut : Cut} (h : comment? c r = some cut) :
    cut.Splits (c :: r) := by
  unfold comment? at h
  split at h
  · cases h; exact Cut.run_splits _ _ _ _ (by simp)
  · split at h
    · rename_i heq
      cases h
      exact ⟨by simp, by simp [splitComment_append heq]⟩
    · cases h; exact ⟨by simp, by simp⟩
  · cases h

theorem delimited_splits (opening close : Char) (r : List Char) :
    (delimited opening close r).Splits (opening :: r) := by
  unfold delimited
  split
  · rename_i heq; exact ⟨by simp, by simp [splitQuoted_append heq]⟩
  · exact ⟨by simp, by simp⟩

theorem string_splits (opening r : List Char) (h : opening ≠ []) :
    (string opening r).Splits (opening ++ r) := by
  unfold string
  split
  · rename_i heq; exact ⟨by simp [h], by simp [splitQuoted_append heq]⟩
  · exact ⟨by simp [h], by simp⟩

theorem quoted?_splits {c : Char} {r : List Char} {cut : Cut} (h : quoted? c r = some cut) :
    cut.Splits (c :: r) := by
  unfold quoted? at h
  split at h <;> cases h
  · exact delimited_splits _ _ _
  · exact delimited_splits _ _ _
  · exact string_splits _ _ (by simp)
  · exact string_splits ['N', '\''] _ (by simp)
  · exact string_splits ['n', '\''] _ (by simp)

theorem number?_splits {c : Char} {r : List Char} {cut : Cut} (h : number? c r = some cut) :
    cut.Splits (c :: r) := by
  unfold number? at h
  split at h
  · cases h; exact Cut.run_splits _ ['0', 'x'] _ _ (by simp)
  · cases h; exact Cut.run_splits _ ['0', 'X'] _ _ (by simp)
  · simp only [Option.ite_none_right_eq_some] at h
    obtain ⟨hc, h⟩ := h
    cases h
    refine ⟨?_, number_append _⟩
    by_cases hd : c.isDigit
    · simp [number, hd]
    · rcases hc with hc | ⟨rfl, -⟩
      · exact absurd hc hd
      · simp [number, splitFraction, List.dropWhile, hd]

theorem named_splits (begun r : List Char) (h : begun ≠ []) :
    (named begun r).Splits (begun ++ r) := by
  unfold named
  split
  · exact Cut.run_splits _ _ _ _ h
  · exact ⟨h, rfl⟩

theorem variableName?_splits {c : Char} {r : List Char} {cut : Cut}
    (h : variableName? c r = some cut) : cut.Splits (c :: r) := by
  unfold variableName? at h
  split at h <;> cases h
  · exact named_splits ['@', '@'] _ (by simp)
  · exact named_splits ['@'] _ (by simp)

theorem word_splits (lineIsBlank : Bool) (text rest : List Char) (h : text ≠ []) :
    (word lineIsBlank text rest).Splits (text ++ rest) := by
  simp only [word]
  split
  · rename_i tail heq
    simp only [Option.ite_none_right_eq_some] at heq
    exact ⟨by simp [h], by simp [separatorTail?_append heq.2]⟩
  · split <;> exact ⟨h, rfl⟩

theorem word?_splits {lineIsBlank : Bool} {c : Char} {r : List Char} {cut : Cut}
    (h : word? lineIsBlank c r = some cut) : cut.Splits (c :: r) := by
  simp only [word?, Option.ite_none_right_eq_some] at h
  obtain ⟨-, h⟩ := h
  cases h
  simpa using word_splits lineIsBlank (c :: r.takeWhile continuesWord)
    (r.dropWhile continuesWord) (by simp)

theorem sign_splits (c : Char) (r : List Char) : (sign c r).Splits (c :: r) := by
  unfold sign
  split <;> exact ⟨by simp, by simp⟩

private theorem eq_some_of_orElse {a b : Option Cut} {cut : Cut} (h : (a <|> b) = some cut) :
    a = some cut ∨ b = some cut := by
  cases a with
  | none => exact .inr (by simpa using h)
  | some _ => exact .inl (by simpa using h)

theorem cut_splits (lineIsBlank : Bool) (c : Char) (r : List Char) :
    (cut lineIsBlank c r).Splits (c :: r) := by
  unfold cut
  cases h : (blank? c r <|> comment? c r <|> quoted? c r <|> number? c r <|> variableName? c r <|>
    word? lineIsBlank c r) with
  | none => exact sign_splits c r
  | some cut =>
    rcases eq_some_of_orElse h with h | h
    · exact blank?_splits h
    rcases eq_some_of_orElse h with h | h
    · exact comment?_splits h
    rcases eq_some_of_orElse h with h | h
    · exact quoted?_splits h
    rcases eq_some_of_orElse h with h | h
    · exact number?_splits h
    rcases eq_some_of_orElse h with h | h
    · exact variableName?_splits h
    · exact word?_splits h

end QueryNames.Piece
