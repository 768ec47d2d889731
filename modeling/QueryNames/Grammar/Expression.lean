import QueryNames.Grammar.Level
import QueryNames.Grammar.Name

/-!
Grammar of expressions, from the strongest binding to the weakest: primary, sign, multiplicative,
additive, predicate, `NOT`, `AND`, `OR`. Where a right side cannot be read, the left one is kept:
the complaint is made already, and the names seen so far still count.
-/

namespace QueryNames

/-- The value of a string literal: its marker and quotes taken off, doubled quotes halved. -/
def stringValue (text : String) : String :=
  let text :=
    match text.toList with
    | 'N' :: r => r
    | 'n' :: r => r
    | r => r
  String.ofList (Text.halve '\'' ((Text.between? '\'' '\'' text).getD text))

/-- An identifier without quotes and without the signs that only some names have. -/
def Token.isPlainName (t : Token) : Bool :=
  t.kind == .identifier && t.text.toList.all fun c => Text.isAlphanumeric c || c == '_'

/-- Functions that are called without parentheses. -/
def niladicFunctions : List String :=
  ["CURRENT_TIMESTAMP", "CURRENT_USER", "SESSION_USER", "SYSTEM_USER", "USER"]

namespace Grammar

def comparison? : TokenKind → Option BinaryOperator
  | .operator .eq => some .eq
  | .operator .notEq => some .notEq
  | .operator .lt => some .lt
  | .operator .gt => some .gt
  | .operator .ltEq => some .ltEq
  | .operator .gtEq => some .gtEq
  | .operator .notLt => some .notLt
  | .operator .notGt => some .notGt
  | _ => none

def additive? : TokenKind → Option BinaryOperator
  | .operator .plus => some .plus
  | .operator .minus => some .minus
  | .operator .ampersand => some .bitwiseAnd
  | .operator .pipe => some .bitwiseOr
  | .operator .caret => some .bitwiseXor
  | _ => none

def multiplicative? : TokenKind → Option BinaryOperator
  | .star => some .multiply
  | .operator .slash => some .divide
  | .operator .percent => some .modulo
  | _ => none

def sign? : TokenKind → Option UnaryOperator
  | .operator .minus => some .minus
  | .operator .plus => some .plus
  | .operator .tilde => some .bitwiseNot
  | _ => none

def conjunction? : TokenKind → Option BinaryOperator
  | .keyword .and => some .and
  | _ => none

def disjunction? : TokenKind → Option BinaryOperator
  | .keyword .or => some .or
  | _ => none

def isSelectOrWith (t : Token) : Bool := t.isKeyword .select || t.isKeyword .with

/-- An opening parenthesis with a query behind it. -/
def Cursor.opensQuery (c : Cursor) : Bool :=
  c.current.isPunctuation .leftParen && isSelectOrWith (c.peek 1)

namespace Parser

variable (inner : Level)

/-- Steps over an operator that `table` knows. -/
def operator? (table : TokenKind → Option ω) : Parser (Option ω) := do
  match table (← current).kind with
  | some op =>
      advance
      return some op
  | none => return none

/-! Subqueries, lists and windows. -/

/-- `( query )` -/
def subquery : Parser Query := do
  if ← look Cursor.opensQuery then
    advance
    let query? ← attempt inner.query
    closeParen
    ofOption query?
  else missing .subquery

def expressionList : Parser (List Expression) := commaList endsItem inner.expression

def orderItem : Parser OrderItem := do
  let e ← inner.expression
  if ← acceptKeyword .asc then return ⟨e, some true⟩
  else if ← acceptKeyword .desc then return ⟨e, some false⟩
  else return ⟨e, none⟩

def orderList : Parser (List OrderItem) := commaList endsOrderItem (orderItem inner)

def argument : Parser Expression := do
  let t ← current
  if t.kind == .star then
    advance
    return .column ⟨none, .wildcard, t.location⟩
  else inner.expression

/-- `[argument, ...] )`, behind the opening parenthesis. An argument may be a bare star. -/
def arguments : Parser (List Expression) := do
  if ← acceptPunctuation .rightParen then return []
  else
    let list ← commaList endsItem (argument inner)
    closeParen
    return list

/-- `( [PARTITION BY ...] [ORDER BY ...] [frame] )` -/
def window : Parser Window := do
  requirePunctuation .leftParen
  let partition? ← onlyIf (← acceptWord "PARTITION") do
    requireKeyword .by
    expressionList inner
  let order? ← onlyIf (← acceptKeyword .order) do
    requireKeyword .by
    orderList inner
  let _ ← onlyIf (← check fun t => t.isWord "ROWS" || t.isWord "RANGE") skipGroup
  closeParen
  return ⟨partition?.getD [], order?.getD []⟩

/-- A function call from its opening parenthesis on. The ordering inside `WITHIN GROUP` is passed
over. -/
def call (name : QualifiedName) : Parser Expression := do
  advance
  let distinct ← acceptKeyword .distinct
  let _ ← onlyIf (!distinct) (acceptKeyword .all)
  let list ← arguments inner
  let _ ← onlyIf (← acceptWord "WITHIN") do
    let _ ← acceptKeyword .group
    skipParenthesized
  if ← acceptKeyword .over then
    return .function name list distinct (some (← window inner))
  else return .function name list distinct none

/-! Primary expressions. -/

/-- `WHEN condition THEN result`, if one follows. -/
def whenBranch : Parser (Option WhenBranch × Bool) := do
  if ← acceptKeyword .when then
    let condition ← inner.expression
    requireKeyword .then
    let result ← inner.expression
    return (some ⟨condition, result⟩, true)
  else return (none, false)

/-- `CASE [operand] branches [ELSE result] END` -/
def caseExpression : Parser Expression := do
  advance
  let operand ← requiredIf (!(← check (·.isKeyword .when))) inner.expression
  let branches ← collect (whenBranch inner)
  if branches.isEmpty then missing (.keyword .when)
  else
    let otherwise ← requiredIf (← acceptKeyword .else) inner.expression
    requireKeyword .end
    return .case operand branches otherwise

/-- `CAST ( e AS type )` -/
def castExpression : Parser Expression := do
  advance
  advance
  let e ← inner.expression
  requireKeyword .as
  let type ← dataType
  closeParen
  return .cast e type none

/-- `CONVERT ( type, e [, style] )` -/
def convertExpression : Parser Expression := do
  advance
  requirePunctuation .leftParen
  let type ← dataType
  requirePunctuation .comma
  let e ← inner.expression
  let style ← requiredIf (← acceptPunctuation .comma) inner.expression
  closeParen
  return .cast e type style

def existsExpression : Parser Expression := do
  advance
  return .exists (← subquery inner)

/-- A subquery, or an expression in parentheses. -/
def parenthesized : Parser Expression := do
  if ← look Cursor.opensQuery then
    return .subquery (← subquery inner)
  else
    advance
    let e? ← attempt inner.expression
    closeParen
    return .nested (← ofOption e?)

def columnOrCall : Parser Expression := do
  let location ← place
  let name ← qualifiedName
  if ← check (·.isPunctuation .leftParen) then call inner name
  else return .column ⟨some name, .regular, location⟩

/-- Casts and niladic functions are told by their names, which are not reserved. -/
def named (t next : Token) : Parser Expression :=
  let called := next.isPunctuation .leftParen
  if t.isPlainName && called && (t.isWord "CAST" || t.isWord "TRY_CAST") then castExpression inner
  else if t.isPlainName && called && t.isWord "TRY_CONVERT" then convertExpression inner
  else if t.isPlainName && !called && !next.isPunctuation .period &&
      niladicFunctions.any t.isWord then do
    advance
    return .niladic t.text
  else columnOrCall inner

def leaf (e : Expression) : Parser Expression := do
  advance
  return e

def primary : Parser Expression := do
  let t ← current
  let next ← peek 1
  match t.kind with
  | .numberLiteral => leaf (.literal (.number t.text))
  | .stringLiteral => leaf (.literal (.string (stringValue t.text)))
  | .variable => leaf (.variable t.text)
  | .keyword .null => leaf (.literal .null)
  | .keyword .case => caseExpression inner
  | .keyword .convert => convertExpression inner
  | .keyword .exists => existsExpression inner
  | .keyword .left | .keyword .right =>
      if next.isPunctuation .leftParen then do
        advance
        call inner (.ofIdentifier ⟨t.text, none, t.location⟩)
      else missing .expression
  | .punctuation .leftParen => parenthesized inner
  | .identifier => named inner t next
  | _ => missing .expression

/-! Operators. -/

/-- A primary expression with any signs before it. -/
def signed : Parser Expression := do
  match ← operator? sign? with
  | some op => return .unary op (← inner.signed)
  | none => primary inner

def multiplicative : Parser Expression :=
  chainLeft (signed inner) (operator? multiplicative?) .binary

def additive : Parser Expression :=
  chainLeft (multiplicative inner) (operator? additive?) .binary

/-- The right side of a comparison: `ALL`, `ANY` or `SOME` with a subquery, or an operand. -/
def comparand : Parser Expression := do
  let quantified ← check fun t => t.isKeyword .all || t.isWord "ANY" || t.isWord "SOME"
  if quantified && (← peek 1).isPunctuation .leftParen then
    advance
    return .subquery (← subquery inner)
  else additive inner

/-- What follows `IN`. -/
def membership (left : Expression) (negated : Bool) : Parser Expression := do
  if ← look Cursor.opensQuery then
    match ← attempt (subquery inner) with
    | some query => return .inSubquery left query negated
    | none => return left
  else if ← acceptPunctuation .leftParen then
    let list ← expressionList inner
    closeParen
    return .inList left list negated
  else
    reportMissing (.punctuation .leftParen)
    return left

/-- What follows `BETWEEN`. -/
def range (left : Expression) (negated : Bool) : Parser Expression := do
  let bounds? ← attempt do
    let low ← additive inner
    requireKeyword .and
    let high ← additive inner
    return (low, high)
  match bounds? with
  | some (low, high) => return .between left low high negated
  | none => return left

/-- What follows `LIKE`. -/
def pattern (left : Expression) (negated : Bool) : Parser Expression := do
  match ← attempt (additive inner) with
  | none => return left
  | some pattern =>
      let escape? ← onlyIf (← acceptKeyword .escape) (additive inner)
      return .like left pattern escape? negated

/-- What follows `IS`. -/
def nullTest (left : Expression) : Parser Expression := do
  let negated ← acceptKeyword .not
  if ← succeeds (requireKeyword .null) then return .isNull left negated else return left

/-- A condition on `left`, if one follows. `NOT` belongs to it only if the word behind it can be
negated so. -/
def condition (left : Expression) : Parser Expression := do
  let next ← peek 1
  let negated ← accept fun t =>
    t.isKeyword .not && (next.isKeyword .in || next.isKeyword .between || next.isKeyword .like)
  if ← acceptKeyword .in then membership inner left negated
  else if ← acceptKeyword .between then range inner left negated
  else if ← acceptKeyword .like then pattern inner left negated
  else return left

def predicate : Parser Expression := do
  if ← check (·.isKeyword .exists) then existsExpression inner
  else
    let left ← additive inner
    match ← operator? comparison? with
    | some op =>
        match ← attempt (comparand inner) with
        | some right => return .binary op left right
        | none => return left
    | none =>
        if ← acceptKeyword .is then nullTest left else condition inner left

def negation : Parser Expression := do
  if ← acceptKeyword .not then return .unary .not (← inner.negation) else predicate inner

def conjunction : Parser Expression :=
  chainLeft (negation inner) (operator? conjunction?) .binary

def disjunction : Parser Expression :=
  chainLeft (conjunction inner) (operator? disjunction?) .binary

end Parser

end Grammar

end QueryNames
