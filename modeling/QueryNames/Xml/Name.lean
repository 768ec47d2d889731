import QueryNames.Xml.Character

/-!
Names in XML. A name may stand in a namespace, and a qualifier in front of it tells which one.
-/

namespace QueryNames.Xml

/-- A name as written. -/
structure Name where
  qualifier : String
  base : String
  deriving DecidableEq, Repr

def isName : List Char → Bool
  | [] => false
  | c :: text => startsName c && text.all continuesName

/-- A name without a colon, or one behind the only colon; nothing or one stands in front of it. -/
def Name.ofChars? (text : List Char) : Option Name :=
  match text.dropWhile (· != ':') with
  | [] => if isName text then some ⟨"", String.ofList text⟩ else none
  | _ :: base =>
      let qualifier := text.takeWhile (· != ':')
      if (qualifier.isEmpty || isName qualifier) && isName base && !base.contains ':' then
        some ⟨String.ofList qualifier, String.ofList base⟩
      else none

/-- A name with the namespace that it stands in, if any. -/
structure ExpandedName where
  space : Option String
  base : String
  deriving DecidableEq, Repr

/-- The namespaces of the qualifiers, the innermost declaration first. The empty qualifier is that
of the names without one. -/
abbrev Scope := List (String × String)

/-- The qualifier that is bound without any declaration, and its namespace. -/
def reserved : String × String := ("xml", "http://www.w3.org/XML/1998/namespace")

/-- The qualifier of declarations, whose namespace cannot be declared. -/
def declaring : String × String := ("xmlns", "http://www.w3.org/2000/xmlns/")

/-- The name of an element. The qualifier of declarations is not for elements, even if declared. -/
def Name.ofElement? (name : Name) (scope : Scope) : Option ExpandedName :=
  if name.qualifier = "" then some ⟨scope.lookup "", name.base⟩
  else if name.qualifier = declaring.1 then none
  else (scope.lookup name.qualifier).map fun space => ⟨some space, name.base⟩

/-- The name of an attribute. Without a qualifier it stands in no namespace. -/
def Name.ofAttribute? (name : Name) (scope : Scope) : Option ExpandedName :=
  if name.qualifier = "" then some ⟨none, name.base⟩
  else
    ((reserved :: scope).lookup name.qualifier).map fun space => ⟨some space, name.base⟩

/-- Whether a qualifier may be declared for a namespace. -/
def Scope.allows (qualifier space : String) : Bool :=
  space != declaring.2 && (qualifier == reserved.1) == (space == reserved.2)

/-- The qualifier that an attribute declares, if it is a declaration. One of the empty qualifier may
itself have any qualifier. -/
def Name.declares? (name : Name) : Option String :=
  if name.qualifier = declaring.1 then some name.base
  else if name.base = declaring.1 then some ""
  else none

end QueryNames.Xml
