import QueryNames.Keyword
import QueryNames.Location

/-!
Tokens of a query text: a kind, the exact text and the place where it begins.
-/

namespace QueryNames

inductive Operator where
  | eq | notEq | lt | gt | ltEq | gtEq | notLt | notGt
  | plus | minus | slash | percent | ampersand | pipe | caret | tilde
  deriving DecidableEq, Repr

inductive Punctuation where
  | comma | leftParen | rightParen | period | semicolon
  deriving DecidableEq, Repr

namespace Punctuation

def char : Punctuation → Char
  | .comma => ','
  | .leftParen => '('
  | .rightParen => ')'
  | .period => '.'
  | .semicolon => ';'

end Punctuation

/-- A star is the wildcard or the multiplication sign, as its place in the query decides. A batch
separator is the word GO alone on a line. -/
inductive TokenKind where
  | identifier
  | keyword (k : Keyword)
  | variable
  | operator (o : Operator)
  | punctuation (p : Punctuation)
  | stringLiteral
  | numberLiteral
  | star
  | batchSeparator
  | unknown
  | endOfInput
  deriving DecidableEq, Repr

structure Token where
  kind : TokenKind
  text : String
  location : Location
  deriving DecidableEq, Repr

namespace Token

def endOfInput (location : Location) : Token := ⟨.endOfInput, "", location⟩

def isEnd (t : Token) : Bool := t.kind == .endOfInput

@[simp] theorem isEnd_endOfInput (location : Location) : (endOfInput location).isEnd = true := rfl

def isKeyword (k : Keyword) (t : Token) : Bool := t.kind == .keyword k

def isPunctuation (p : Punctuation) (t : Token) : Bool := t.kind == .punctuation p

theorem isEnd_iff {t : Token} : t.isEnd = true ↔ t.kind = .endOfInput := beq_iff_eq

theorem isKeyword_iff {k : Keyword} {t : Token} : t.isKeyword k = true ↔ t.kind = .keyword k :=
  beq_iff_eq

theorem isKeyword_eq_false {k : Keyword} {t : Token} {kind : TokenKind} (is : t.kind = kind)
    (other : kind ≠ .keyword k) : t.isKeyword k = false := by
  unfold isKeyword
  rw [is]
  exact beq_false_of_ne other

theorem isPunctuation_iff {p : Punctuation} {t : Token} :
    t.isPunctuation p = true ↔ t.kind = .punctuation p :=
  beq_iff_eq

end Token

end QueryNames
