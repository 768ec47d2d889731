import QueryNames.Xml.Character
import QueryNames.Xml.Reading

/-!
Character data: text in which references stand for characters. Main statement: text without
references stands for itself.
-/

namespace QueryNames.Xml

def digit? (base : Nat) (c : Char) : Option Nat :=
  let value? :=
    if c.isDigit then some (c.toNat - '0'.toNat)
    else if 'a' ≤ c ∧ c ≤ 'f' then some (10 + (c.toNat - 'a'.toNat))
    else if 'A' ≤ c ∧ c ≤ 'F' then some (10 + (c.toNat - 'A'.toNat))
    else none
  value?.filter (· < base)

/-- The number that digits write. It has to fit in 32 bits. -/
def number? (base : Nat) (digits : List Char) : Option Nat :=
  if digits.isEmpty then none
  else (digits.foldlM (fun n c => (digit? base c).map (base * n + ·)) 0).filter (· ≤ 0xffffffff)

/-- The character of a code point, and the replacement character in the place of what is none. -/
def charOfCode (n : Nat) : Char := if n.isValidChar then Char.ofNat n else '\ufffd'

/-- The character that a reference stands for, by what stands between `&` and `;`. -/
def reference? : List Char → Option Char
  | '#' :: 'x' :: digits => ((number? 16 digits).map charOfCode).filter isAllowed
  | '#' :: digits => ((number? 10 digits).map charOfCode).filter isAllowed
  | name =>
      [("amp", '&'), ("lt", '<'), ("gt", '>'), ("quot", '"'), ("apos", '\'')].lookup
        (String.ofList name)

/-- A character or a reference, put in front of what was found before. -/
def dereferenced (found : List Char) (c : Char) : Reading (List Char) :=
  if c = '&' then do
    let name ← .through ";"
    let c ← .ofOption (reference? name)
    return c :: found
  else if isAllowed c then return c :: found
  else .fail

/-- A text with its references undone. -/
def dereference? (text : List Char) : Option (List Char) :=
  (Reading.fold dereferenced [] text).map List.reverse

/-- Line breaks and tabs in the value of an attribute count as spaces. -/
def spaced : List Char → List Char
  | '\r' :: '\n' :: text => ' ' :: spaced text
  | c :: text => (if isSpace c then ' ' else c) :: spaced text
  | [] => []

def attributeValue? (text : List Char) : Option String :=
  (dereference? (spaced text)).map String.ofList

/-- Text between tags. -/
def isCharacterData (text : List Char) : Bool :=
  (dereference? text).isSome && !Reading.occurs "]]>" text

private theorem fold_dereferenced {text : List Char} (h : ∀ c ∈ text, isAllowed c ∧ c ≠ '&')
    (found : List Char) :
    Reading.fold dereferenced found text = some (text.reverse ++ found) := by
  induction text generalizing found with
  | nil => simp [Reading.fold]
  | cons c text ih =>
    have hc := h c (by simp)
    simp [Reading.fold, dereferenced, hc, Rest.all, ih fun d hd => h d (by simp [hd])]

theorem dereference?_of_plain {text : List Char} (h : ∀ c ∈ text, isAllowed c ∧ c ≠ '&') :
    dereference? text = some text := by
  simp [dereference?, fold_dereferenced h]

end QueryNames.Xml
