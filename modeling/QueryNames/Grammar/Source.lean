import QueryNames.Grammar.Expression

/-!
Grammar of table sources: names, variables, functions, derived tables, sources in parentheses, and
chains of joins, which bind to the left.
-/

namespace QueryNames.Grammar.Parser

variable (inner : Level)

/-- `[AS] name`, if one follows; behind `AS` it has to. -/
def tableLabel : Parser (Option Identifier) := do
  if ← acceptKeyword .as then
    match ← attempt identifier with
    | some label => return some label
    | none =>
        reportMissing .label
        return none
  else if ← check (·.isWord "TABLESAMPLE") then return none
  else attempt identifier

/-- `WITH ( hints )` and `TABLESAMPLE ...` say nothing about names. -/
def skipHints : Parser Unit := do
  let next ← peek 1
  let _ ← onlyIf (← accept fun t => t.isKeyword .with && next.isPunctuation .leftParen)
    skipParenthesized
  let _ ← onlyIf (← acceptWord "TABLESAMPLE") (skipUntil endsTable)

/-- `( query ) [AS] alias [( columns )]` -/
def derivedTable : Parser TableSource := do
  advance
  let query? ← attempt inner.query
  closeParen
  let label ← tableLabel
  let _ ← onlyIf label.isNone (reportMissing .derivedTableLabel)
  let columns ← columnNames
  let query ← ofOption query?
  return .derived query label columns

def parenthesizedSource : Parser TableSource := do
  advance
  let source? ← attempt inner.source
  closeParen
  return .parenthesized (← ofOption source?)

def namedSource : Parser TableSource := do
  let name ← qualifiedName
  if ← acceptPunctuation .leftParen then
    let list ← arguments inner
    return .function name list (← tableLabel)
  else
    let label ← tableLabel
    skipHints
    return .named ⟨name, label⟩

/-- One side of a join. -/
def table : Parser TableSource := do
  let t ← current
  match t.kind with
  | .punctuation .leftParen =>
      if ← look Cursor.opensQuery then derivedTable inner else parenthesizedSource inner
  | .variable =>
      advance
      return .variable t.text (← tableLabel)
  | .identifier => namedSource inner
  | _ => missing .tableReference

/-- The kind of a join, told by its first word and by `APPLY` behind that. -/
def joinKind? (t next : Token) : Option JoinKind :=
  match t.kind with
  | .keyword .join | .keyword .inner => some .inner
  | .keyword .left => some .leftOuter
  | .keyword .right => some .rightOuter
  | .keyword .full => some .fullOuter
  | .keyword .cross => some (if next.isWord "APPLY" then .crossApply else .cross)
  | .keyword .outer => if next.isWord "APPLY" then some .outerApply else none
  | _ => none

def isJoinHint (t : Token) : Bool :=
  t.isKeyword .merge || t.isWord "HASH" || t.isWord "LOOP" || t.isWord "REMOTE"

/-- A join operator, if one follows: `[INNER | LEFT [OUTER] | ...] [hint] JOIN` or `... APPLY`. -/
def joinOperator? : Parser (Option JoinKind) := do
  match joinKind? (← current) (← peek 1) with
  | none => return none
  | some kind =>
      if kind == .crossApply || kind == .outerApply then
        advance
        advance
        return some kind
      else if ← acceptKeyword .join then return some kind
      else
        advance
        let _ ← acceptKeyword .outer
        let _ ← accept isJoinHint
        let _ ← succeeds (requireKeyword .join)
        return some kind

/-- `ON condition`, which only some joins have. -/
def joinCondition (kind : JoinKind) : Parser (Option Expression) := do
  if kind == .cross || kind == .crossApply || kind == .outerApply then return none
  else if ← succeeds (requireKeyword .on) then
    let condition? ← attempt inner.expression
    let _ ← onlyIf condition?.isNone (skipUntil endsTable)
    return condition?
  else return none

/-- The condition of a join whose right side cannot be read is read and dropped. -/
def skipJoin : Parser Unit := do
  skipUntil endsTable
  let _ ← onlyIf (← acceptKeyword .on) inner.expression

def join (left : TableSource) : Parser (TableSource × Bool) := do
  match ← joinOperator? with
  | none => return (left, false)
  | some kind =>
      match ← attempt (table inner) with
      | none =>
          skipJoin inner
          return (left, true)
      | some right =>
          let condition? ← joinCondition inner kind
          return (.joined left right kind condition?, true)

def tableSource : Parser TableSource := do
  iterate (join inner) (← table inner)

def sourceList : Parser (List TableSource) := commaList endsItem (tableSource inner)

end QueryNames.Grammar.Parser
