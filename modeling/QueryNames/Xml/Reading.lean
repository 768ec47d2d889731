/-!
Reading a text from its front. What a step leaves is an end of the text, so that steps can follow
one another up to the end of any text.
-/

namespace QueryNames.Xml

/-- What is left of a text. -/
structure Rest (text : List Char) where
  chars : List Char
  isSuffix : chars <:+ text

namespace Rest

def all (text : List Char) : Rest text := ⟨text, List.suffix_rfl⟩

def drop (n : Nat) (text : List Char) : Rest text := ⟨text.drop n, List.drop_suffix n text⟩

def dropWhile (p : Char → Bool) (text : List Char) : Rest text :=
  ⟨text.dropWhile p, List.dropWhile_suffix p⟩

def behind (c : Char) {text : List Char} (rest : Rest text) : Rest (c :: text) :=
  ⟨rest.chars, rest.isSuffix.trans (List.suffix_cons c text)⟩

def trans {text : List Char} (first : Rest text) (second : Rest first.chars) : Rest text :=
  ⟨second.chars, second.isSuffix.trans first.isSuffix⟩

end Rest

/-- A step that finds something at the front of a text or fails. -/
def Reading (α : Type) := (text : List Char) → Option (α × Rest text)

namespace Reading

instance : Monad Reading where
  pure a text := some (a, .all text)
  bind first next text :=
    match first text with
    | none => none
    | some (a, rest) => (next a rest.chars).map fun (b, last) => (b, rest.trans last)

@[simp] theorem pure_apply (a : α) (text : List Char) :
    (pure a : Reading α) text = some (a, .all text) := rfl

def fail : Reading α := fun _ => none

def ofOption (found : Option α) : Reading α := fun text => found.map (·, .all text)

def check (holds : Bool) : Reading Unit := if holds then pure () else fail

def next : Reading Char
  | [] => none
  | c :: text => some (c, .behind c (.all text))

/-- Whether the text goes on with `mark`. -/
def sees (mark : String) : Reading Bool := fun text =>
  some (mark.toList.isPrefixOf text, .all text)

def skip (mark : String) : Reading Unit := fun text =>
  if mark.toList.isPrefixOf text then some ((), .drop mark.length text) else none

def takeWhile (p : Char → Bool) : Reading (List Char) := fun text =>
  some (text.takeWhile p, .dropWhile p text)

/-- Reads up to the first `mark` and past it. -/
def through (mark : String) : Reading (List Char)
  | [] => none
  | c :: text =>
      if mark.toList.isPrefixOf (c :: text) then some ([], .drop mark.length (c :: text))
      else (through mark text).map fun (found, rest) => (c :: found, rest.behind c)

/-- Whether `mark` stands in a text. -/
def occurs (mark : String) (text : List Char) : Bool := (through mark text).isSome

/-- Takes step after step, each behind the next character, until there is none for a character. -/
def many (step : Char → Option (Reading α)) : Reading (List α)
  | [] => some ([], .all [])
  | c :: text =>
      match step c with
      | none => some ([], .all (c :: text))
      | some read =>
          match read text with
          | none => none
          | some (a, rest) =>
              (many step rest.chars).map fun (others, last) =>
                (a :: others, (rest.trans last).behind c)
termination_by text => text.length
decreasing_by exact Nat.lt_succ_of_le rest.isSuffix.length_le

/-- Reads a text to its end; each step goes on behind the next character. -/
def fold (step : σ → Char → Reading σ) (state : σ) : List Char → Option σ
  | [] => some state
  | c :: text =>
      match step state c text with
      | none => none
      | some (state, rest) => fold step state rest.chars
termination_by text => text.length
decreasing_by exact Nat.lt_succ_of_le rest.isSuffix.length_le

end Reading

end QueryNames.Xml
