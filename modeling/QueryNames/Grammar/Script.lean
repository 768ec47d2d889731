import QueryNames.Batch
import QueryNames.Grammar.Query

/-!
Grammar of scripts. Each batch is read on its own; what is no query is complained of and passed
over up to the next semicolon or `SELECT`.
-/

namespace QueryNames

namespace Grammar

/-- How many levels of queries, expressions and sources in parentheses may stand in each other. -/
def nestingLimit : Nat := 40

/-- The parsers for what may hold `n` levels, itself counted. -/
def level : Nat → Level
  | 0 =>
      { query := Parser.tooDeep fun _ => false
        source := Parser.tooDeep fun _ => false
        expression := Parser.tooDeep endsItem
        negation := Parser.tooDeep endsItem
        signed := Parser.tooDeep endsItem }
  | n + 1 =>
      let inner := level n
      { query := Parser.queryStatement inner
        source := Parser.tableSource inner
        expression := Parser.disjunction inner
        negation := Parser.negation inner
        signed := Parser.signed inner }

namespace Parser

def atStatementEnd : Parser Bool := look fun c =>
  c.isAtEnd || c.current.isPunctuation .semicolon || c.startsQuery ||
    match c.current.kind with
    | .keyword k => k.startsOtherStatement
    | _ => false

/-- To the next semicolon or `SELECT`, over closing parentheses that nothing opened. -/
def skipStatement : Parser Unit :=
  iterate (fun _ => do
    skipUntil fun t => t.isPunctuation .semicolon || t.isKeyword .select
    return ((), ← acceptPunctuation .rightParen)) ()

def finishStatement : Parser Unit := do
  if ← atStatementEnd then pure ()
  else
    reportSurplus .endOfStatement
    skipStatement

def query : Parser Query := do
  let query? ← attempt (level nestingLimit).query
  finishStatement
  ofOption query?

def reportOtherStatement : Parser Unit := do
  let t ← current
  match t.kind with
  | .keyword k =>
      if k.startsOtherStatement then report (.unsupportedStatement t.found)
      else reportMissing (.keyword .select)
  | _ => reportMissing (.keyword .select)

def otherStatement : Parser Unit := do
  reportOtherStatement
  advance
  skipStatement

def statement : Parser (Option Query × Bool) := do
  if ← acceptPunctuation .semicolon then return (none, true)
  else if ← look Cursor.isAtEnd then return (none, false)
  else if ← look Cursor.startsQuery then return (← attempt query, true)
  else
    otherStatement
    return (none, true)

def script : Parser (List Query) := collect statement

end Parser

end Grammar

/-- A script as far as it could be read, and all that is wrong with the text, in its order. -/
structure ParseResult where
  script : Script
  errors : List Diagnostic

namespace ParseResult

/-- The tokens as one batch. -/
def ofBatch (stream : TokenStream) : ParseResult :=
  let (queries?, s) := Grammar.Parser.script ⟨.ofTokens stream.tokens, stream.errors.reverse⟩
  ⟨⟨queries?.getD []⟩, Diagnostic.sort s.reported.reverse⟩

/-- The tokens batch by batch. -/
def ofTokens (stream : TokenStream) : ParseResult :=
  let results := (Batch.ofTokens stream.tokens).map fun batch => ofBatch ⟨batch.tokens, []⟩
  ⟨⟨results.flatMap (·.script.queries)⟩,
    Diagnostic.sort (stream.errors ++ results.flatMap (·.errors))⟩

def ofText (text : String) : ParseResult := ofTokens (.ofText text)

end ParseResult

end QueryNames
