import QueryNames.Grammar.Query

/-!
Parts of productions that are reasoned about on their own. Main statements: the productions, as put
together from these parts.
-/

namespace QueryNames.Grammar.Parser

/-! Names. -/

/-- The part behind a period, which is missed if there is none. -/
def partBehind : Parser (Option Identifier × Bool) := do
  match ← attempt identifier with
  | some part => return (some part, true)
  | none =>
      reportMissing .identifierAfterPeriod
      return (none, false)

/-- One round of the reading of a dotted name. -/
def namePart : Parser (Option Identifier × Bool) := do
  if ← acceptPunctuation .period then
    if ← check (·.isPunctuation .period) then return (none, true)
    else
      match ← attempt identifier with
      | some part => return (some part, true)
      | none =>
          reportMissing .identifierAfterPeriod
          return (none, false)
  else return (none, false)

theorem namePart_eq : namePart = (do
    if ← acceptPunctuation .period then
      if ← check (·.isPunctuation .period) then return (none, true) else partBehind
    else return (none, false)) := rfl

theorem qualifiedName_eq : qualifiedName = (do
    match ← attempt identifier with
    | none => missing .identifier
    | some first =>
        let others ← collect namePart
        return ⟨first, others⟩) := rfl

/-- The label behind `AS`, which is missed if there is none. -/
def explicitLabel : Parser (Option Identifier) := do
  match ← attempt identifier with
  | some label => return some label
  | none =>
      reportMissing .label
      return none

theorem tableLabel_eq : tableLabel = (do
    if ← acceptKeyword .as then explicitLabel
    else if ← check (·.isWord "TABLESAMPLE") then return none
    else attempt identifier) := rfl

/-- A name and the period behind it. -/
def starPart : Parser (Option Identifier × Bool) := do
  match ← attempt identifier with
  | some part =>
      advance
      return (some part, true)
  | none => return (none, false)

theorem qualifiedStar_eq : qualifiedStar = (do
    let location ← place
    let parts ← collect starPart
    advance
    return .qualifiedWildcard ⟨QualifiedName.ofList? parts, .wildcard, location⟩) := rfl

variable (inner : Level)

/-! Expressions. -/

/-- What stands behind the word before a comparand, if there was one. -/
def quantifiedOperand (quantified : Bool) : Parser Expression := do
  if quantified && (← peek 1).isPunctuation .leftParen then
    advance
    return .subquery (← subquery inner)
  else additive inner

theorem comparand_eq : comparand inner =
    (check (fun t => t.isKeyword .all || t.isWord "ANY" || t.isWord "SOME") >>=
      quantifiedOperand inner) := rfl

/-- The query behind `IN`. -/
def memberQuery (left : Expression) (negated : Bool) : Parser Expression := do
  match ← attempt (subquery inner) with
  | some query => return .inSubquery left query negated
  | none => return left

theorem membership_eq (left : Expression) (negated : Bool) : membership inner left negated = (do
    if ← look Cursor.opensQuery then memberQuery inner left negated
    else if ← acceptPunctuation .leftParen then
      let list ← expressionList inner
      closeParen
      return .inList left list negated
    else
      reportMissing (.punctuation .leftParen)
      return left) := rfl

/-- The right side of a comparison. -/
def comparisonTail (left : Expression) (op : BinaryOperator) : Parser Expression := do
  match ← attempt (comparand inner) with
  | some right => return .binary op left right
  | none => return left

/-- What is no comparison behind the left side of a predicate. -/
def testTail (left : Expression) : Parser Expression := do
  if ← acceptKeyword .is then nullTest left else condition inner left

/-- What stands behind the left side of a predicate. -/
def predicateTail (left : Expression) : Parser Expression := do
  match ← operator? comparison? with
  | some op =>
      match ← attempt (comparand inner) with
      | some right => return .binary op left right
      | none => return left
  | none => testTail inner left

theorem predicateTail_eq (left : Expression) : predicateTail inner left = (do
    match ← operator? comparison? with
    | some op => comparisonTail inner left op
    | none => testTail inner left) := rfl

theorem predicate_eq : predicate inner = (do
    if ← check (·.isKeyword .exists) then existsExpression inner
    else
      let left ← additive inner
      predicateTail inner left) := rfl

/-! Queries. -/

/-- What may follow the quantity of rows and `PERCENT`. -/
def tiesTail (quantity : Expression) (percent : Bool) : Parser Top := do
  let next ← peek 1
  let withTies ← accept fun t => t.isKeyword .with && next.isWord "TIES"
  let _ ← onlyIf withTies advance
  return ⟨quantity, percent, withTies⟩

theorem top_eq : top inner = (do
    advance
    let quantity ← topQuantity inner
    let percent ← acceptKeyword .percent
    tiesTail quantity percent) := rfl

/-- What is made of a query that may be missing behind its common tables. -/
def withTables (location : Location) (tables : List CommonTable) : Option Query → Parser Query
  | some query => return { query with commonTables := tables }
  | none => if tables.isEmpty then giveUp else return { location, commonTables := tables }

theorem queryStatement_eq : queryStatement inner = (do
    let location ← place
    let tables ← commonTables inner
    attempt (queryChain inner) >>= withTables location tables) := rfl

end QueryNames.Grammar.Parser
