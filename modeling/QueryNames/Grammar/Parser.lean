import QueryNames.Diagnostic
import QueryNames.Grammar.Cursor

/-!
Parsers over a cursor. A parser may give up; it then leaves the cursor and the complaints where it
got to, so that what was read and said is not lost.
-/

namespace QueryNames.Grammar

/-- The cursor, and the diagnostics so far, the latest first. -/
structure State where
  cursor : Cursor
  reported : List Diagnostic

def State.remaining (s : State) : Nat := s.cursor.remaining

def Parser (α : Type) : Type := State → Option α × State

namespace Parser

instance : Monad Parser where
  pure a := fun s => (some a, s)
  bind p f := fun s =>
    match p s with
    | (some a, s) => f a s
    | (none, s) => (none, s)

theorem pure_apply (a : α) (s : State) : (pure a : Parser α) s = (some a, s) := rfl

theorem bind_apply (p : Parser α) (f : α → Parser β) (s : State) :
    (p >>= f) s =
      match p s with
      | (some a, s) => f a s
      | (none, s) => (none, s) := rfl

instance : LawfulMonad Parser :=
  LawfulMonad.mk' Parser
    (fun p => by
      funext s
      show (p >>= fun a => pure a) s = p s
      rw [bind_apply]
      split
      · next h => rw [h, pure_apply]
      · next h => rw [h])
    (fun _ _ => rfl)
    (fun p f g => by
      funext s
      simp only [bind_apply]
      split <;> rename_i h <;> split at h <;> simp_all)

def giveUp : Parser α := fun s => (none, s)

def ofOption : Option α → Parser α
  | some a => pure a
  | none => giveUp

/-- The result, or its absence, of a parser that may give up. -/
def attempt (p : Parser α) : Parser (Option α) := fun s =>
  let (a?, s) := p s
  (some a?, s)

/-- Runs a parser on a condition only. -/
def onlyIf (condition : Bool) (p : Parser α) : Parser (Option α) :=
  if condition then attempt p else pure none

/-- Runs a parser on a condition only; where it gives up, nothing can follow. -/
def requiredIf (condition : Bool) (p : Parser α) : Parser (Option α) :=
  if condition then some <$> p else pure none

/-! Looking and moving. -/

def look (f : Cursor → α) : Parser α := fun s => (some (f s.cursor), s)

def move (f : Cursor → Cursor) : Parser Unit := fun s => (some (), { s with cursor := f s.cursor })

def current : Parser Token := look (·.current)

def peek (n : Nat) : Parser Token := look (·.peek n)

def place : Parser Location := look (·.current.location)

def advance : Parser Unit := move Cursor.advance

def skipUntil (stop : Token → Bool) : Parser Unit := move (Cursor.skipUntil stop)

def skipGroup : Parser Unit := move Cursor.skipGroup

def skipParenthesized : Parser Unit := move Cursor.skipParenthesized

def check (p : Token → Bool) : Parser Bool := look fun c => p c.current

/-- Steps over the current token if it satisfies `p`, and says whether it did. -/
def accept (p : Token → Bool) : Parser Bool := fun s =>
  if p s.cursor.current then (some true, { s with cursor := s.cursor.advance })
  else (some false, s)

def acceptKeyword (k : Keyword) : Parser Bool := accept (·.isKeyword k)

def acceptPunctuation (p : Punctuation) : Parser Bool := accept (·.isPunctuation p)

/-! Complaints. -/

/-- A token gets one complaint at most: of two in a row at one place the first stays. -/
def report (complaint : Complaint) : Parser Unit := fun s =>
  let here := s.cursor.current.location
  let again := s.reported.head?.any fun d => d.isGrammatical && d.location == here
  if again then (some (), s)
  else (some (), { s with reported := ⟨.grammatical complaint, here⟩ :: s.reported })

def reportMissing (expected : Expected) : Parser Unit := do
  report (.missing expected (← current).found)

def reportSurplus (expected : Expected) : Parser Unit := do
  report (.surplus (← current).found expected)

/-- Gives up with a complaint that something else is wanted here. -/
def missing (expected : Expected) : Parser α := do
  reportMissing expected
  giveUp

def requireKeyword (k : Keyword) : Parser Unit := do
  if ← acceptKeyword k then pure () else missing (.keyword k)

def requirePunctuation (p : Punctuation) : Parser Unit := do
  if ← acceptPunctuation p then pure () else missing (.punctuation p)

/-- Whether a required parser did not give up. -/
def succeeds (p : Parser Unit) : Parser Bool := do
  return (← attempt p).isSome

/-! Repetition. Every round has to move on; the loops stop at one that does not. -/

/-- Repeats `step` on its own result as long as it asks for another round. -/
def iterate (step : β → Parser (β × Bool)) (b : β) : Parser β := fun s =>
  match step b s with
  | (none, s') => (none, s')
  | (some (b', more), s') =>
      if more = true ∧ s'.remaining < s.remaining then iterate step b' s' else (some b', s')
termination_by s => s.remaining

/-- Collects what `step` finds, as long as it asks for another round. -/
def collect (step : Parser (Option α × Bool)) : Parser (List α) := fun s =>
  match step s with
  | (none, s') => (none, s')
  | (some (a?, more), s') =>
      if more = true ∧ s'.remaining < s.remaining then
        match collect step s' with
        | (none, s'') => (none, s'')
        | (some as, s'') => (some (a?.toList ++ as), s'')
      else (some a?.toList, s')
termination_by s => s.remaining

/-- A chain of operands in which each operator takes all that follows it as its right side. A right
side that gives up is left out. -/
def chainRight (operand : Parser α) (operator : Parser (Option ω)) (join : α → ω → α → α) :
    Parser α := fun s =>
  match operand s with
  | (none, s') => (none, s')
  | (some a, s') =>
      match operator s' with
      | (some (some op), s'') =>
          if s''.remaining < s.remaining then
            match chainRight operand operator join s'' with
            | (some b, s''') => (some (join a op b), s''')
            | (none, s''') => (some a, s''')
          else (some a, s'')
      | (_, s'') => (some a, s'')
termination_by s => s.remaining

/-- A chain of operands joined from the left. A right side that gives up ends the chain, and what
stands before its operator is kept. -/
def chainLeft (operand : Parser α) (operator : Parser (Option ω)) (join : ω → α → α → α) :
    Parser α := do
  let first ← operand
  iterate (fun left => do
    match ← operator with
    | none => pure (left, false)
    | some op =>
        match ← attempt operand with
        | none => pure (left, false)
        | some right => pure (join op left right, true)) first

end Parser

end QueryNames.Grammar
