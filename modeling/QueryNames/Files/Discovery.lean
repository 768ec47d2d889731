import QueryNames.Files.Entry

/-!
Finding query files: all files below a directory with the extension `sql`, but for those in
directories that hold build output.
-/

namespace QueryNames.Files

/-- What stands behind the last period of a name, if anything stands before it. -/
def extension? (name : String) : Option String :=
  let (reversed, rest) := name.toList.reverse.span (· != '.')
  match rest with
  | [] | ['.'] => none
  | _ => some (String.ofList reversed.reverse)

def isQueryFile (name : String) : Bool :=
  (extension? name).any fun extension => extension.toLower == "sql"

def isBuildOutput (name : String) : Bool := name == "bin" || name == "obj"

namespace Entry

mutual

/-- The paths of the query files in a directory, as they come. -/
def queryFiles : Entry → List (List String)
  | .file _ => []
  | .directory entries => queryFilesIn entries

def queryFilesIn : List (String × Entry) → List (List String)
  | [] => []
  | (name, .file _) :: rest =>
      (if isQueryFile name then [[name]] else []) ++ queryFilesIn rest
  | (name, .directory entries) :: rest =>
      (if isBuildOutput name then [] else (queryFilesIn entries).map (name :: ·)) ++
        queryFilesIn rest

end

end Entry

/-- A path below another. -/
def join (root : String) (path : List String) : String :=
  root ++ (if root.endsWith "/" then "" else "/") ++ "/".intercalate path

/-- What is known of a path, and of the paths below it. -/
def FileSystem.below (root : String) (entry : Entry) : FileSystem := fun path =>
  if path = root then some entry
  else
    let front := (join root []).toList
    if front.isPrefixOf path.toList then
      entry.follow [] ((String.ofList (path.toList.drop front.length)).splitOn "/")
    else none

/-- Names in the order of their first different characters. -/
def comesBefore (a b : String) : Bool := List.lex a.toList b.toList fun c d => c < d

/-- Paths in the order of their first different parts. -/
def sortPaths (paths : List (List String)) : List (List String) :=
  paths.mergeSort fun a b => !List.lex b a comesBefore

/-- The query files at a path: those in a directory, or the file itself whatever its name. -/
def discover (files : FileSystem) (root : String) : List String :=
  match files root with
  | none => []
  | some (.file _) => [root]
  | some directory => (sortPaths directory.queryFiles).map (join root)

end QueryNames.Files
