import QueryNames.Token

/-!
What can be wrong with a query text. A fault belongs to a stretch of characters that is no token,
a complaint to a token that the grammar does not allow where it stands. Neither stops the reading.
-/

namespace QueryNames

inductive Fault where
  | unclosedComment
  | unclosedIdentifier (close : Char)
  | emptyIdentifier
  | unclosedString
  | namelessVariable
  | strayCharacter (c : Char)
  deriving DecidableEq, Repr

def Fault.message : Fault → String
  | .unclosedComment => "unterminated block comment"
  | .unclosedIdentifier close =>
      "unterminated delimited identifier, expected `" ++ close.toString ++ "`"
  | .emptyIdentifier => "empty delimited identifier"
  | .unclosedString => "unterminated string literal"
  | .namelessVariable => "expected variable name after `@`"
  | .strayCharacter c => "unexpected character `" ++ c.toString ++ "`"

/-- What the grammar would have accepted. -/
inductive Expected where
  | keyword (k : Keyword)
  | punctuation (p : Punctuation)
  | selectList
  | expression
  | tableReference
  | subquery
  | identifier
  | identifierAfterPeriod
  | label
  | derivedTableLabel
  | commonTableName
  | endOfStatement
  | endOfClause
  | commaOrEndOfList
  deriving DecidableEq, Repr

def Expected.description : Expected → String
  | .keyword k => k.spelling
  | .punctuation p => "`" ++ p.char.toString ++ "`"
  | .selectList => "select list"
  | .expression => "expression"
  | .tableReference => "table reference"
  | .subquery => "subquery"
  | .identifier => "identifier"
  | .identifierAfterPeriod => "identifier after `.`"
  | .label => "alias"
  | .derivedTableLabel => "derived table alias"
  | .commonTableName => "common table expression name"
  | .endOfStatement => "end of statement"
  | .endOfClause => "end of clause"
  | .commaOrEndOfList => "`,` or end of list"

/-- The token that a complaint is about: its text, or the end of the input. -/
abbrev Found := Option String

def Token.found (t : Token) : Found := if t.isEnd then none else some t.text

def Found.description : Found → String
  | some text => "`" ++ text ++ "`"
  | none => "end of input"

inductive Complaint where
  | missing (expected : Expected) (found : Found)
  | surplus (found : Found) (expected : Expected)
  | unsupportedStatement (found : Found)
  | nestingTooDeep
  deriving DecidableEq, Repr

def Complaint.message : Complaint → String
  | .missing expected found =>
      "expected " ++ expected.description ++ ", found " ++ Found.description found
  | .surplus found expected =>
      "unexpected " ++ Found.description found ++ ", expected " ++ expected.description
  | .unsupportedStatement found =>
      "unsupported statement " ++ Found.description found ++ ", expected SELECT"
  | .nestingTooDeep => "nesting too deep"

inductive Cause where
  | lexical (fault : Fault)
  | grammatical (complaint : Complaint)
  deriving DecidableEq, Repr

structure Diagnostic where
  cause : Cause
  location : Location
  deriving DecidableEq, Repr

namespace Diagnostic

def isGrammatical (d : Diagnostic) : Bool :=
  match d.cause with
  | .lexical _ => false
  | .grammatical _ => true

def message (d : Diagnostic) : String :=
  match d.cause with
  | .lexical fault => fault.message
  | .grammatical complaint => complaint.message

def display (d : Diagnostic) : String :=
  (if d.isGrammatical then "syntax error" else "lexical error") ++
    " at line " ++ toString d.location.line ++ ", column " ++ toString d.location.column ++
    ": " ++ d.message

/-- In the order of the text; what stands at one place stays in the order given. -/
def sort (ds : List Diagnostic) : List Diagnostic :=
  ds.mergeSort fun a b => a.location.offset ≤ b.location.offset

end Diagnostic

end QueryNames
