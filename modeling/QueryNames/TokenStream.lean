import QueryNames.Piece

/-!
Reading a query text into tokens. Main statements: the pieces of a text make up the text, and each
stands where the text before it ends.
-/

namespace QueryNames

/-- A piece of a text and the place where it begins. -/
structure Piece where
  kind : Piece.Kind
  text : List Char
  location : Location

namespace Piece

/-- Whether only blanks stand behind the last line feed, given whether they did before `text`. -/
def keepsLineBlank (lineIsBlank : Bool) (text : List Char) : Bool :=
  text.foldl (fun blank c => c == '\n' || (blank && Text.isBlank c)) lineIsBlank

/-- All pieces of a text that begins at `place`. -/
def chain (place : Location) (lineIsBlank : Bool) : List Char → List Piece
  | [] => []
  | c :: r =>
      let first := cut lineIsBlank c r
      ⟨first.kind, first.text, place⟩ ::
        chain (place.after first.text) (keepsLineBlank lineIsBlank first.text) first.rest
termination_by cs => cs.length
decreasing_by exact (cut_splits lineIsBlank c r).length_lt

theorem flatMap_text_chain (place : Location) (lineIsBlank : Bool) (cs : List Char) :
    (chain place lineIsBlank cs).flatMap (·.text) = cs := by
  fun_induction chain place lineIsBlank cs with
  | case1 => rfl
  | case2 place lineIsBlank c r first ih =>
    rw [List.flatMap_cons, ih]
    exact (cut_splits lineIsBlank c r).append

/-- A faulty stretch stands among the tokens as an unknown one. -/
def token? (piece : Piece) : Option Token :=
  match piece.kind with
  | .token kind => some ⟨kind, String.ofList piece.text, piece.location⟩
  | .fault _ => some ⟨.unknown, String.ofList piece.text, piece.location⟩
  | _ => none

def diagnostic? (piece : Piece) : Option Diagnostic :=
  match piece.kind with
  | .fault fault => some ⟨.lexical fault, piece.location⟩
  | .unclosedComment => some ⟨.lexical .unclosedComment, piece.location⟩
  | _ => none

end Piece

/-- Tokens in the order of the text, and the faults met on the way. -/
structure TokenStream where
  tokens : List Token
  errors : List Diagnostic

namespace TokenStream

/-- The tokens of a text that begins at `origin`, closed by an end of input. -/
def ofTextAt (origin : Location) (text : String) : TokenStream :=
  let pieces := Piece.chain origin true text.toList
  ⟨pieces.filterMap Piece.token? ++ [.endOfInput (origin.after text.toList)],
    pieces.filterMap Piece.diagnostic?⟩

def ofText (text : String) : TokenStream := ofTextAt .start text

/-- The tokens numbered from `first` up to `last`, without `last`; the faults all stay. -/
def slice (stream : TokenStream) (first last : Nat) : TokenStream :=
  { stream with tokens := (stream.tokens.take last).drop first }

end TokenStream

/-- A reader that gives one token at a time. -/
structure Lexer where
  ahead : List Piece
  stop : Location
  finished : Bool
  errors : List Diagnostic

namespace Lexer

def ofTextAt (origin : Location) (text : String) : Lexer :=
  ⟨Piece.chain origin true text.toList, origin.after text.toList, false, []⟩

private def pull (stop : Location) : List Piece → List Diagnostic → Token × Lexer
  | [], errors => (.endOfInput stop, ⟨[], stop, true, errors⟩)
  | piece :: ahead, errors =>
      let errors := errors ++ piece.diagnostic?.toList
      match piece.token? with
      | some token => (token, ⟨ahead, stop, false, errors⟩)
      | none => pull stop ahead errors

/-- The next token; nothing behind the end of input. -/
def next (lexer : Lexer) : Option Token × Lexer :=
  if lexer.finished then (none, lexer)
  else
    let (token, lexer) := pull lexer.stop lexer.ahead lexer.errors
    (some token, lexer)

def remaining (lexer : Lexer) : List Token :=
  if lexer.finished then [] else lexer.ahead.filterMap Piece.token? ++ [.endOfInput lexer.stop]

private theorem pull_tokens (stop : Location) (ahead : List Piece) (errors : List Diagnostic) :
    (pull stop ahead errors).1 :: (pull stop ahead errors).2.remaining =
      ahead.filterMap Piece.token? ++ [.endOfInput stop] := by
  induction ahead generalizing errors with
  | nil => rfl
  | cons piece ahead ih =>
      rw [pull, List.filterMap_cons]
      cases piece.token? with
      | none => exact ih _
      | some token => rfl

private theorem pull_errors (stop : Location) (ahead : List Piece) (errors : List Diagnostic) :
    (pull stop ahead errors).2.errors ++
        (pull stop ahead errors).2.ahead.filterMap Piece.diagnostic? =
      errors ++ ahead.filterMap Piece.diagnostic? := by
  induction ahead generalizing errors with
  | nil => rfl
  | cons piece ahead ih =>
      have split : errors ++ piece.diagnostic?.toList ++ ahead.filterMap Piece.diagnostic? =
          errors ++ (piece :: ahead).filterMap Piece.diagnostic? := by
        rw [List.filterMap_cons, List.append_assoc]
        cases piece.diagnostic? <;> rfl
      rw [pull, ← split]
      cases piece.token? with
      | none => exact ih _
      | some token => rfl

private theorem pull_finished (stop : Location) (ahead : List Piece) (errors : List Diagnostic)
    (finished : (pull stop ahead errors).2.finished = true) :
    (pull stop ahead errors).2.ahead = [] := by
  induction ahead generalizing errors with
  | nil => rfl
  | cons piece ahead ih =>
      rw [pull] at finished ⊢
      cases found : piece.token? with
      | none =>
          rw [found] at finished
          exact ih _ finished
      | some token =>
          rw [found] at finished
          cases finished

theorem next_of_finished {lexer : Lexer} (finished : lexer.finished = true) :
    lexer.next = (none, lexer) := by
  rw [next, if_pos finished]

/-- A pull takes the first of the remaining tokens. -/
theorem next_remaining (lexer : Lexer) :
    lexer.next.1 = lexer.remaining.head? ∧ lexer.next.2.remaining = lexer.remaining.tail := by
  cases finished : lexer.finished with
  | true => simp [next, remaining, finished]
  | false =>
      have tokens := pull_tokens lexer.stop lexer.ahead lexer.errors
      simp only [next, remaining, finished, Bool.false_eq_true, if_false, ← tokens]
      exact ⟨rfl, rfl⟩

/-- The errors so far and those ahead stay the same. -/
theorem next_errors (lexer : Lexer) :
    lexer.next.2.errors ++ lexer.next.2.ahead.filterMap Piece.diagnostic? =
      lexer.errors ++ lexer.ahead.filterMap Piece.diagnostic? := by
  cases finished : lexer.finished with
  | true => rw [next_of_finished finished]
  | false =>
      rw [next, finished]
      exact pull_errors lexer.stop lexer.ahead lexer.errors

theorem next_ahead {lexer : Lexer} (kept : lexer.finished = true → lexer.ahead = [])
    (finished : lexer.next.2.finished = true) : lexer.next.2.ahead = [] := by
  cases already : lexer.finished with
  | true =>
      rw [next_of_finished already]
      exact kept already
  | false =>
      rw [next, already] at finished ⊢
      exact pull_finished lexer.stop lexer.ahead lexer.errors finished

end Lexer

end QueryNames
