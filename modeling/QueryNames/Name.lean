import QueryNames.Token
import QueryNames.Text.Blank
import QueryNames.Text.Quoted

/-!
Names: identifiers, plain or quoted, and the dotted names that they make up.
-/

namespace QueryNames

inductive Quote where
  | bracket
  | double
  | single
  deriving DecidableEq, Repr

def Quote.opening : Quote → Char
  | .bracket => '['
  | .double => '"'
  | .single => '\''

def Quote.closing : Quote → Char
  | .bracket => ']'
  | .double => '"'
  | .single => '\''

/-- The quotes, if any, in which a name is written. -/
def Quote.ofName? (text : List Char) : Option Quote :=
  [Quote.bracket, .double].find? fun q => (Text.between? q.opening q.closing text).isSome

/-- The text of a quoted value with its quotes undone; any other text as it is. -/
def Quote.undo (q : Quote) (text : List Char) : List Char :=
  match Text.between? q.opening q.closing text with
  | some inner => Text.halve q.closing inner
  | none => text

/-- The value of a name as written: quotes undone, blanks around it cut off. -/
def nameValue (text : String) : String :=
  let text := Text.trim text.toList
  match Quote.ofName? text with
  | some q => String.ofList (q.undo text)
  | none => String.ofList text

structure Identifier where
  value : String
  quote : Option Quote
  location : Location
  deriving DecidableEq, Repr

def Identifier.plain (value : String) : Identifier := ⟨value, none, .none⟩

def Identifier.ofToken (t : Token) : Identifier :=
  ⟨nameValue t.text, Quote.ofName? t.text.toList, t.location⟩

/-- A dotted name such as `dbo.Orders`. It has at least one part. -/
structure QualifiedName where
  first : Identifier
  others : List Identifier
  deriving DecidableEq, Repr

namespace QualifiedName

def ofIdentifier (first : Identifier) : QualifiedName := ⟨first, []⟩

def ofList? : List Identifier → Option QualifiedName
  | [] => none
  | first :: others => some ⟨first, others⟩

def push (name : QualifiedName) (part : Identifier) : QualifiedName :=
  { name with others := name.others ++ [part] }

def parts (name : QualifiedName) : List Identifier := name.first :: name.others

/-- The last part: the name of the object itself. -/
def base (name : QualifiedName) : Identifier := name.others.getLastD name.first

def location (name : QualifiedName) : Location := name.first.location

def values (name : QualifiedName) : List String := name.parts.map (·.value)

@[simp] theorem parts_push (name : QualifiedName) (part : Identifier) :
    (name.push part).parts = name.parts ++ [part] := by simp [push, parts]

theorem base_eq_getLast (name : QualifiedName) :
    name.base = name.parts.getLast (by simp [parts]) := by
  simp only [base, parts, List.getLast_eq_getLastD]

theorem parts_of_ofList? {parts : List Identifier} {name : QualifiedName}
    (h : ofList? parts = some name) : name.parts = parts := by
  cases parts <;> cases h
  rfl

end QualifiedName

/-! Dotted names in a text: dots inside quotes do not divide. -/

/-- Puts a character at the front of the first part. -/
def extendFirst (c : Char) : List (List Char) → List (List Char)
  | [] => [[c]]
  | part :: parts => (c :: part) :: parts

/-- The parts of a dotted name. `quote?` is the closing quote of the part being read, if it is
quoted; blanks outside quotes do not count. -/
def splitParts : (quote? : Option Char) → List Char → List (List Char)
  | _, [] => [[]]
  | some q, [c] => if c = q then [[]] else [[c]]
  | some q, c :: d :: r =>
      if c = q then
        if d = q then extendFirst q (splitParts (some q) r) else splitParts none (d :: r)
      else extendFirst c (splitParts (some q) (d :: r))
  | none, c :: r =>
      if c = '[' then splitParts (some ']') r
      else if c = '"' then splitParts (some '"') r
      else if c = '.' then [] :: splitParts none r
      else if Text.isBlank c then splitParts none r
      else extendFirst c (splitParts none r)

def dottedParts (text : String) : List String :=
  (splitParts none text.toList).map String.ofList

end QueryNames
