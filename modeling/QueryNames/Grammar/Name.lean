import QueryNames.Grammar.Recovery
import QueryNames.Name
import QueryNames.Text.Letter

/-!
Grammar of names, lists of names and data types.
-/

namespace QueryNames.Grammar.Parser

/-- Gives up without a complaint. -/
def identifier : Parser Identifier := do
  let t ← current
  if t.kind == .identifier then
    advance
    return .ofToken t
  else giveUp

theorem identifier_apply (s : State) :
    identifier s =
      if s.cursor.current.kind = .identifier then
        (some (.ofToken s.cursor.current), { s with cursor := s.cursor.advance })
      else (none, s) := by
  by_cases kind : s.cursor.current.kind = .identifier <;>
    simp only [identifier, current, look, bind_apply, kind, beq_iff_eq, if_true, if_false] <;> rfl

def requireIdentifier (expected : Expected) : Parser Identifier := do
  match ← attempt identifier with
  | some name => return name
  | none => missing expected

/-- `part { . part }`. A part may be left out between two periods, as in `db..table`. -/
def qualifiedName : Parser QualifiedName := do
  match ← attempt identifier with
  | none => missing .identifier
  | some first =>
      let others ← collect do
        if ← acceptPunctuation .period then
          if ← check (·.isPunctuation .period) then return (none, true)
          else
            match ← attempt identifier with
            | some part => return (some part, true)
            | none =>
                reportMissing .identifierAfterPeriod
                return (none, false)
        else return (none, false)
      return ⟨first, others⟩

/-- `( name, ... )`, from the opening parenthesis. -/
def identifierList : Parser (List Identifier) := do
  advance
  let names ← commaList endsItem (requireIdentifier .identifier)
  closeParen
  return names

/-- The names of the columns of a table, if they are given. -/
def columnNames : Parser (List Identifier) := do
  if ← check (·.isPunctuation .leftParen) then identifierList else return []

def typeArgument : Parser (Option String × Bool) := do
  let t ← current
  if t.isEnd || t.isPunctuation .rightParen then return (none, false)
  else
    advance
    return (some (if t.isPunctuation .comma then ", " else t.text), true)

/-- What stands between the parentheses of a data type: commas with a blank behind each, all else
as written and without blanks. -/
def typeArguments : Parser String := do
  let parts ← collect typeArgument
  return String.join parts

/-- A type name with its arguments, such as `decimal(18, 2)`. -/
def dataType : Parser String := do
  let name ← qualifiedName
  let base := ".".intercalate name.values
  if ← acceptPunctuation .leftParen then
    let arguments ← typeArguments
    closeParen
    return base ++ "(" ++ arguments ++ ")"
  else return base

end QueryNames.Grammar.Parser
