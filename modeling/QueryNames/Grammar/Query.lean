import QueryNames.Grammar.Source

/-!
Grammar of queries: common tables, set operations, and the clauses of a query from `SELECT` to
`OPTION`.
-/

namespace QueryNames.Grammar

/-- One or more opening parentheses with a query behind them. -/
def Cursor.opensQueryDeep (c : Cursor) : Bool :=
  c.current.isPunctuation .leftParen &&
    (c.tokens.dropWhile (·.isPunctuation .leftParen)).head?.any isSelectOrWith

/-- `SELECT`, `WITH` and a name, or parentheses around a query. -/
def Cursor.startsQuery (c : Cursor) : Bool :=
  match c.current.kind with
  | .keyword .select => true
  | .keyword .with => (c.peek 1).kind == .identifier
  | .punctuation .leftParen => c.opensQueryDeep
  | _ => false

/-- Identifiers and periods by turns, with a star at the end. -/
def startsWithQualifiedStar : List Token → Bool
  | name :: period :: t :: rest =>
      name.kind == .identifier && period.isPunctuation .period &&
        (t.kind == .star || startsWithQualifiedStar (t :: rest))
  | _ => false

namespace Parser

variable (inner : Level)

/-! The select list. -/

def columnLabel : Parser (Option Identifier) := do
  let explicit ← acceptKeyword .as
  let t ← current
  match t.kind with
  | .identifier => attempt identifier
  | .stringLiteral =>
      advance
      return some ⟨stringValue t.text, some .single, t.location⟩
  | _ =>
      let _ ← onlyIf explicit (reportMissing .label)
      return none

/-- `a.b.*` -/
def qualifiedStar : Parser SelectItem := do
  let location ← place
  let parts ← collect do
    match ← attempt identifier with
    | some part =>
        advance
        return (some part, true)
    | none => return (none, false)
  advance
  return .qualifiedWildcard ⟨QualifiedName.ofList? parts, .wildcard, location⟩

/-- A star, `alias = e`, `@variable = e`, a qualified star, or `e [[AS] alias]`. -/
def selectItem : Parser SelectItem := do
  let t ← current
  let assigns := (← peek 1).kind == .operator .eq
  if t.kind == .star then
    advance
    return .wildcard t.location
  else if t.kind == .identifier && assigns then
    let label? ← attempt identifier
    advance
    return .expression (← inner.expression) label?
  else if t.kind == .variable && assigns then
    advance
    advance
    return .expression (← inner.expression) none
  else if ← look fun c => startsWithQualifiedStar c.tokens then qualifiedStar
  else
    let e ← inner.expression
    return .expression e (← columnLabel)

def selectList : Parser (List SelectItem) := do
  if ← check endsClause then
    reportMissing .selectList
    return []
  else commaList endsItem (selectItem inner)

/-- `n | ( e )` -/
def topQuantity : Parser Expression := do
  if ← acceptPunctuation .leftParen then
    let e? ← attempt inner.expression
    closeParen
    ofOption e?
  else primary inner

/-- `TOP n | TOP ( e )`, then `[PERCENT] [WITH TIES]`. -/
def top : Parser Top := do
  advance
  let quantity ← topQuantity inner
  let percent ← acceptKeyword .percent
  let next ← peek 1
  let withTies ← accept fun t => t.isKeyword .with && next.isWord "TIES"
  let _ ← onlyIf withTies advance
  return ⟨quantity, percent, withTies⟩

/-! Clauses. -/

def intoClause : Parser (Option QualifiedName) := do
  if ← acceptKeyword .into then
    let name? ← attempt qualifiedName
    finishClause name?.isSome
    return name?
  else return none

def fromClause : Parser (List TableSource) := do
  if ← acceptKeyword .from then sourceList inner else return []

/-- A clause that holds one expression: `WHERE` or `HAVING`. -/
def expressionClause (k : Keyword) : Parser (Option Expression) := do
  if ← acceptKeyword k then
    let e? ← attempt inner.expression
    finishClause e?.isSome
    return e?
  else return none

def groupClause : Parser (List Expression) := do
  if ← acceptKeyword .group then
    let list? ← attempt do
      requireKeyword .by
      let _ ← acceptKeyword .all
      expressionList inner
    finishClause true
    return list?.getD []
  else return []

/-- `ORDER BY items [OFFSET ...]`; the row counts name nothing. -/
def orderClause : Parser (List OrderItem) := do
  if ← acceptKeyword .order then
    let list? ← attempt do
      requireKeyword .by
      orderList inner
    let _ ← onlyIf (← acceptWord "OFFSET") (skipUntil endsClause)
    finishClause true
    return list?.getD []
  else return []

/-- `FOR ...` and `OPTION ( ... )` name neither tables nor columns. -/
def skipOptions : Parser Unit := do
  let _ ← onlyIf (← acceptKeyword .for)
    (skipUntil fun t => endsClause t && !t.isKeyword .for)
  let _ ← onlyIf (← acceptKeyword .option) do
    if ← check (·.isPunctuation .leftParen) then skipParenthesized
    else reportMissing (.punctuation .leftParen)

def selectQuery : Parser Query := do
  let location ← place
  advance
  let distinct ← acceptKeyword .distinct
  let _ ← onlyIf (!distinct) (acceptKeyword .all)
  let top? ← onlyIf (← check (·.isKeyword .top)) (top inner)
  let items ← selectList inner
  let into ← intoClause
  let sources ← fromClause inner
  let condition ← expressionClause inner .where
  let groupBy ← groupClause inner
  let having ← expressionClause inner .having
  let orderBy ← orderClause inner
  skipOptions
  return { location, distinct, top := top?, items, into, sources, condition, groupBy, having,
           orderBy }

/-! Whole queries. -/

/-- `SELECT ...` or `( query )` -/
def queryTerm : Parser Query := do
  if ← check (·.isKeyword .select) then selectQuery inner
  else if ← look Cursor.opensQueryDeep then
    advance
    let query? ← attempt inner.query
    closeParen
    ofOption query?
  else missing (.keyword .select)

def setOperator? : Parser (Option SetOperator) := do
  if ← acceptKeyword .union then
    if ← acceptKeyword .all then return some .unionAll else return some .union
  else if ← acceptKeyword .except then return some .except
  else if ← acceptKeyword .intersect then return some .intersect
  else return none

/-- `term [UNION [ALL] | EXCEPT | INTERSECT query]`. The operation stands in the place of any that
the term already has. -/
def queryChain : Parser Query :=
  chainRight (queryTerm inner) setOperator? fun left operator right =>
    { left with setOperation := some ⟨operator, right⟩ }

/-- `name [( columns )] AS (` -/
def commonTableHead : Parser (Identifier × List Identifier) := do
  let name ← requireIdentifier .commonTableName
  let columns ← columnNames
  requireKeyword .as
  requirePunctuation .leftParen
  return (name, columns)

def commonTableQuery : Parser Query := do
  if ← look Cursor.startsQuery then inner.query else missing (.keyword .select)

/-- `name [( columns )] AS ( query )`. Where it breaks off before the query, the rest up to the next
`SELECT` is passed over and no other table follows. -/
def commonTable : Parser (Option CommonTable × Bool) := do
  match ← attempt commonTableHead with
  | none =>
      skipUntil (·.isKeyword .select)
      return (none, false)
  | some (name, columns) =>
      let query? ← attempt (commonTableQuery inner)
      closeParen
      let more ← acceptPunctuation .comma
      return (query?.map fun query => ⟨name, columns, query⟩, more)

def commonTables : Parser (List CommonTable) := do
  if ← acceptKeyword .with then collect (commonTable inner) else return []

/-- `[WITH tables] query`. Common tables are kept even if no query follows them. -/
def queryStatement : Parser Query := do
  let location ← place
  let tables ← commonTables inner
  match ← attempt (queryChain inner) with
  | some query => return { query with commonTables := tables }
  | none => if tables.isEmpty then giveUp else return { location, commonTables := tables }

end Parser

end QueryNames.Grammar
