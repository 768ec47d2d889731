import QueryNames.Token

/-!
A place in a token list: the token there and those behind it. Main statements: no movement goes
back, and none goes past an end of input.
-/

namespace QueryNames.Grammar

structure Cursor where
  current : Token
  ahead : List Token

namespace Cursor

/-- The place just behind the text of a token, on the token's line. -/
def endOf (t : Token) : Location :=
  ⟨t.location.offset + t.text.utf8ByteSize, t.location.line, t.location.column + t.text.length⟩

/-- The tokens, and an end of input if they do not close with one. -/
def closed (tokens : List Token) : List Token :=
  match tokens.getLast? with
  | none => [.endOfInput .none]
  | some last => if last.isEnd then tokens else tokens ++ [.endOfInput (endOf last)]

def ofTokens (tokens : List Token) : Cursor :=
  match closed tokens with
  | [] => ⟨.endOfInput .none, []⟩
  | t :: ahead => ⟨t, ahead⟩

def tokens (c : Cursor) : List Token := c.current :: c.ahead

/-- How far the cursor is from the last token. -/
def remaining (c : Cursor) : Nat := c.ahead.length

/-- The token `n` places ahead, the last one if there are not so many. -/
def peek (c : Cursor) (n : Nat) : Token := c.tokens[n]?.getD (c.ahead.getLastD c.current)

def isAtEnd (c : Cursor) : Bool := c.current.isEnd

def advance (c : Cursor) : Cursor :=
  if c.isAtEnd then c
  else
    match c.ahead with
    | [] => c
    | t :: ahead => ⟨t, ahead⟩

/-- From `t`, inside of `depth` parentheses opened on the way, to the next token outside of all of
them that satisfies `stop` or closes the group around them, or to an end of input. -/
def skipFrom (stop : Token → Bool) (depth : Nat) (t : Token) : List Token → Cursor
  | [] => ⟨t, []⟩
  | next :: ahead =>
      if t.isEnd then ⟨t, next :: ahead⟩
      else if t.isPunctuation .leftParen then skipFrom stop (depth + 1) next ahead
      else if t.isPunctuation .rightParen then
        match depth with
        | 0 => ⟨t, next :: ahead⟩
        | depth + 1 => skipFrom stop depth next ahead
      else if depth == 0 && stop t then ⟨t, next :: ahead⟩
      else skipFrom stop depth next ahead

def skipUntil (stop : Token → Bool) (c : Cursor) : Cursor := skipFrom stop 0 c.current c.ahead

/-- To the end of the group around the cursor. -/
def skipGroup (c : Cursor) : Cursor := c.skipUntil fun _ => false

/-- Past a group that opens at the cursor. -/
def skipParenthesized (c : Cursor) : Cursor :=
  if c.current.isPunctuation .leftParen then
    let inner := c.advance.skipGroup
    if inner.current.isPunctuation .rightParen then inner.advance else inner
  else c

theorem advance_suffix (c : Cursor) : c.advance.tokens <:+ c.tokens := by
  unfold advance
  split
  · exact List.suffix_rfl
  · split
    · exact List.suffix_rfl
    · rename_i h
      simp [tokens, h]

theorem skipFrom_suffix (stop : Token → Bool) (depth : Nat) (t : Token) (ahead : List Token) :
    (skipFrom stop depth t ahead).tokens <:+ t :: ahead := by
  induction ahead generalizing depth t with
  | nil => exact List.suffix_rfl
  | cons next ahead ih =>
    have step (d : Nat) : (skipFrom stop d next ahead).tokens <:+ t :: next :: ahead :=
      (ih d next).trans (List.suffix_cons _ _)
    unfold skipFrom
    repeat' split
    all_goals first | exact List.suffix_rfl | exact step _

theorem skipUntil_suffix (stop : Token → Bool) (c : Cursor) :
    (c.skipUntil stop).tokens <:+ c.tokens := skipFrom_suffix ..

end Cursor

end QueryNames.Grammar
