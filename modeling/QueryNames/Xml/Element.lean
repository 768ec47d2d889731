import QueryNames.Xml.Markup

/-!
The tree of elements of an XML document.
-/

namespace QueryNames.Xml

structure Element where
  name : ExpandedName
  attributes : List (ExpandedName × String)
  children : List Element

namespace Element

mutual

protected def decEq : (a b : Element) → Decidable (a = b)
  | ⟨name, attributes, children⟩, ⟨name', attributes', children'⟩ =>
      have := Element.decEqAll children children'
      decidable_of_iff (name = name' ∧ attributes = attributes' ∧ children = children')
        (by rw [Element.mk.injEq])

protected def decEqAll : (as bs : List Element) → Decidable (as = bs)
  | [], [] => isTrue rfl
  | [], _ :: _ | _ :: _, [] => isFalse nofun
  | a :: as, b :: bs =>
      have := Element.decEq a b
      have := Element.decEqAll as bs
      decidable_of_iff (a = b ∧ as = bs) (by rw [List.cons.injEq])

end

instance : DecidableEq Element := Element.decEq

/-- The value of an attribute that stands in no namespace. -/
def attribute? (element : Element) (name : String) : Option String :=
  element.attributes.lookup ⟨none, name⟩

end Element

/-- An element whose end tag is still to come. -/
structure OpenElement where
  tag : Name
  scope : Scope
  name : ExpandedName
  attributes : List (ExpandedName × String)
  /-- The children so far, the latest first. -/
  reversed : List Element

namespace OpenElement

/-- No qualifier may be declared twice except the empty one, of which the first declaration counts,
and the reserved one. No two attributes may have one name. -/
def ofTag? (outer : Scope) (tag : Name) (attributes : List (Name × String)) :
    Option OpenElement := do
  let declared := attributes.filterMap fun (name, value) => name.declares?.map (·, value)
  guard (declared.all fun (qualifier, space) => Scope.allows qualifier space)
  let declared := declared.filter (·.1 != reserved.1)
  guard ((declared.map (·.1)).filter (· != "")).Nodup
  let scope := declared ++ outer
  let name ← tag.ofElement? scope
  let attributes ← (attributes.filter (·.1.declares?.isNone)).mapM fun (name, value) =>
    (name.ofAttribute? scope).map (·, value)
  guard (attributes.map (·.1)).Nodup
  return ⟨tag, scope, name, attributes, []⟩

def close (element : OpenElement) : Element :=
  ⟨element.name, element.attributes, element.reversed.reverse⟩

def addChild (element : OpenElement) (child : Element) : OpenElement :=
  { element with reversed := child :: element.reversed }

end OpenElement

/-- How far a document has been read. -/
inductive Progress where
  | beforeRoot
  | inside (innermost : OpenElement) (others : List OpenElement)
  | behindRoot (root : Element)

namespace Progress

def scope : Progress → Scope
  | .inside element _ => element.scope
  | _ => []

def enter (progress : Progress) (element : OpenElement) : Option Progress :=
  match progress with
  | .beforeRoot => some (.inside element [])
  | .inside parent others => some (.inside element (parent :: others))
  | .behindRoot _ => none

/-- Closes the innermost element, which its end tag has to name as its start tag did. -/
def leave (progress : Progress) (tag : Name) : Option Progress :=
  match progress with
  | .inside element others =>
      if element.tag = tag then
        match others with
        | [] => some (.behindRoot element.close)
        | parent :: others => some (.inside (parent.addChild element.close) others)
      else none
  | _ => none

/-- Characters other than white space stand only inside the root. -/
def add (progress : Progress) (markup : Markup) : Option Progress :=
  match markup, progress with
  | .startTag tag attributes, _ =>
      (OpenElement.ofTag? progress.scope tag attributes).bind progress.enter
  | .emptyTag tag attributes, _ =>
      ((OpenElement.ofTag? progress.scope tag attributes).bind progress.enter).bind (·.leave tag)
  | .endTag tag, _ => progress.leave tag
  | .characters, .inside .. => some progress
  | .characters, _ => none
  | .space, _ | .aside, _ => some progress

end Progress

/-- The root of the document that a text holds. -/
def Element.ofText? (text : String) : Option Element := do
  let (_, rest) ← Reading.front text.toList
  let step (progress : Progress) (c : Char) : Reading Progress := do
    .ofOption (progress.add (← Reading.markup c))
  match ← Reading.fold step .beforeRoot rest.chars with
  | .behindRoot root => some root
  | _ => none

end QueryNames.Xml
