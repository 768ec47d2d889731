import QueryNames.Grammar.Parser
import QueryNames.Text.Lowercase

/-!
Where a list item, a clause or a group ends, and how a parser gets there from anything that does
not belong. Parentheses opened on the way are passed over whole.
-/

namespace QueryNames

/-- A plain identifier spelled `word` up to case: a word that counts as a keyword here only. -/
def Token.isWord (word : String) (t : Token) : Bool :=
  t.kind == .identifier && Text.sameAsciiCase t.text.toList word.toList

namespace Grammar

def endsClause (t : Token) : Bool :=
  match t.kind with
  | .endOfInput => true
  | .punctuation .semicolon => true
  | .punctuation .rightParen => true
  | .keyword k => k.endsClause
  | _ => false

def endsItem (t : Token) : Bool := t.isPunctuation .comma || endsClause t

def endsTable (t : Token) : Bool :=
  endsItem t ||
    match t.kind with
    | .keyword k => k.startsJoin || k == .on
    | _ => false

/-- Order items also end at `OFFSET` and at the frame of a window. -/
def endsOrderItem (t : Token) : Bool :=
  endsItem t || t.isWord "OFFSET" || t.isWord "ROWS" || t.isWord "RANGE"

namespace Parser

def acceptWord (word : String) : Parser Bool := accept (·.isWord word)

/-- The end of a group, past anything that is left inside it. -/
def closeParen : Parser Unit := do
  if ← acceptPunctuation .rightParen then pure ()
  else
    reportMissing (.punctuation .rightParen)
    skipGroup
    let _ ← acceptPunctuation .rightParen

/-- Goes to the end of a list item, with a complaint if a parsed item does not end here. Says
whether a comma follows. -/
def finishItem (ends : Token → Bool) (parsed : Bool) : Parser Bool := do
  let _ ← onlyIf (parsed && !ends (← current)) (reportSurplus .commaOrEndOfList)
  skipUntil ends
  acceptPunctuation .comma

def finishClause (parsed : Bool) : Parser Unit := do
  let _ ← onlyIf (parsed && !endsClause (← current)) (reportSurplus .endOfClause)
  skipUntil endsClause

/-- Items between commas; those that give up are left out. -/
def commaList (ends : Token → Bool) (item : Parser α) : Parser (List α) :=
  collect do
    let item? ← attempt item
    let more ← finishItem ends item?.isSome
    return (item?, more)

/-- Gives up where nesting has reached its limit, at the next token that satisfies `ends`. -/
def tooDeep (ends : Token → Bool) : Parser α := do
  report .nestingTooDeep
  skipUntil ends
  giveUp

end Parser

end Grammar

end QueryNames
