import QueryNames.Xml.CharacterData
import QueryNames.Xml.Name

/-!
The markup of XML: a document is a row of tags and of what stands between them.
-/

namespace QueryNames.Xml

inductive Markup where
  | startTag (name : Name) (attributes : List (Name × String))
  | emptyTag (name : Name) (attributes : List (Name × String))
  | endTag (name : Name)
  | characters
  | space
  /-- A comment or an instruction to a program. -/
  | aside
  deriving DecidableEq, Repr

namespace Reading

def spaces : Reading Unit := do
  let _ ← .takeWhile isSpace

def name : Reading Name := do
  .ofOption (Name.ofChars? (← .takeWhile continuesName))

/-- A name and the text in quotes that is assigned to it. -/
def assignment : Reading (Name × List Char) := do
  let name ← name
  spaces
  .skip "="
  spaces
  let quote ← .next
  .check (quote == '"' || quote == '\'')
  let value ← .takeWhile fun c => c != quote && c != '<'
  .check (value.all isAllowed)
  .skip (String.singleton quote)
  return (name, value)

/-- Attributes, each behind white space, and white space behind the last. -/
def attributes : Reading (List (Name × String)) := do
  let found ← .many fun c =>
    if isSpace c then
      some do
        spaces
        if (← .sees ">") || (← .sees "/") then return none
        let (name, value) ← assignment
        return some (name, ← .ofOption (attributeValue? value))
    else none
  return found.filterMap id

def tag : Reading Markup := do
  let name ← name
  let attributes ← attributes
  if ← .sees "/" then
    .skip "/>"
    return .emptyTag name attributes
  else
    .skip ">"
    return .startTag name attributes

def endTag : Reading Markup := do
  .skip "/"
  let name ← name
  spaces
  .skip ">"
  return .endTag name

def comment : Reading Markup := do
  .skip "!--"
  let text ← .through "-->"
  .check (text.all isAllowed && !occurs "--" text && text.getLast? != some '-')
  return .aside

def instruction : Reading Markup := do
  .skip "?"
  .check (!(← .sees "xml "))
  .check (isName (← .takeWhile continuesName))
  .check ((← .through "?>").all isAllowed)
  return .aside

/-- Characters that are not looked at for markup. -/
def unparsed : Reading Markup := do
  .skip "![CDATA["
  .check ((← .through "]]>").all isAllowed)
  return .characters

/-- The markup that begins with a character. -/
def markup (c : Char) : Reading Markup := do
  if c = '<' then
    if ← .sees "/" then endTag
    else if ← .sees "?" then instruction
    else if ← .sees "!--" then comment
    else if ← .sees "!" then unparsed
    else tag
  else
    let text := c :: (← .takeWhile (· != '<'))
    .check (isCharacterData text)
    return if text.all isSpace then .space else .characters

/-- White space is needed unless the declaration ends. -/
def gap : Reading Unit := do
  if ← .sees "?>" then return
  .check (isSpace (← .next))
  spaces

/-- The declaration that can stand at the very front of a document. -/
def declaration : Reading Unit := do
  .skip "<?xml"
  gap
  .check (← .sees "version")
  let _ ← assignment
  gap
  if ← .sees "encoding" then
    let _ ← assignment
    gap
  if ← .sees "standalone" then
    let _ ← assignment
  spaces
  .skip "?>"

/-- What stands in front of all markup. -/
def front : Reading Unit := do
  if ← .sees "\ufeff" then .skip "\ufeff"
  if ← .sees "<?xml " then declaration

end Reading

end QueryNames.Xml
