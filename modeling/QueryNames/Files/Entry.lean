/-!
Trees of directories and files, and what stands at a path in one.
-/

namespace QueryNames.Files

inductive Entry where
  | file (content : List UInt8)
  | directory (entries : List (String × Entry))

namespace Entry

def empty : Entry := .directory []

/-- The entry of a name in a directory. -/
def child? (name : String) : Entry → Option Entry
  | .file _ => none
  | .directory entries => (entries.find? (·.1 == name)).map (·.2)

/-- Sets the entry of a name in a list of entries. -/
def setIn (name : String) (entry : Entry) : List (String × Entry) → List (String × Entry)
  | [] => [(name, entry)]
  | (other, old) :: rest =>
      if other = name then (name, entry) :: rest else (other, old) :: setIn name entry rest

/-- Puts an entry at a path, with the directories that lead there. -/
def place (entry : Entry) : List String → Entry → Entry
  | [], _ => entry
  | name :: path, root =>
      let entries :=
        match root with
        | .file _ => []
        | .directory entries => entries
      .directory (setIn name (place entry path ((root.child? name).getD empty)) entries)

def isDirectory : Entry → Bool
  | .file _ => false
  | .directory _ => true

/-- Follows the parts of a path from `here`, with the directories above it. A part that is empty or
a period stays in a directory, two periods go up; nothing is known outside of the tree. -/
def follow : (above : List Entry) → (here : Entry) → List String → Option Entry
  | _, here, [] => some here
  | above, here, part :: path =>
      if !here.isDirectory then none
      else if part = "" || part = "." then follow above here path
      else if part = ".." then
        match above with
        | [] => none
        | up :: above => follow above up path
      else
        match here.child? part with
        | some next => follow (here :: above) next path
        | none => none

end Entry

/-- What stands at a path, if anything. -/
abbrev FileSystem := String → Option Entry

/-- The files below a working directory. The top of the whole system is a directory too, of which
nothing else is known. -/
def FileSystem.ofDirectory (root : Entry) : FileSystem := fun path =>
  if path = "" then none
  else if path.startsWith "/" then
    if path.toList.all (· == '/') then some .empty else none
  else root.follow [] (path.splitOn "/")

end QueryNames.Files
