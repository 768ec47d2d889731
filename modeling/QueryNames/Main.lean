import QueryNames.CommandLine.Outcome

/-!
The program: it reads the files that a command looks at, and prints the outcome.
-/

namespace QueryNames

open Files

/-- A file or directory below one that is searched for query files; other files are passed over. -/
partial def readBelow (found : IO.FS.DirEntry) : IO (Option (String × Entry)) := do
  match (← found.path.symlinkMetadata).type with
  | .file =>
      if !isQueryFile found.fileName then return none
      return some (found.fileName, .file (← IO.FS.readBinFile found.path).toList)
  | .dir =>
      if isBuildOutput found.fileName then return none
      let entries ← (← found.path.readDir).toList.filterMapM readBelow
      return some (found.fileName, .directory entries)
  | _ => return none

def readAt (path : String) : IO (Option Entry) := do
  let here : IO.FS.DirEntry := ⟨".", path⟩
  try
    match (← here.path.metadata).type with
    | .dir => return some (.directory (← (← here.path.readDir).toList.filterMapM readBelow))
    | _ => return some (.file (← IO.FS.readBinFile here.path).toList)
  catch _ => return none

/-- The files at the given paths. -/
def readAll : List String → IO FileSystem
  | [] => return fun _ => none
  | path :: paths => do
      let others ← readAll paths
      match ← readAt path with
      | some entry => return fun asked => (FileSystem.below path entry asked).or (others asked)
      | none => return others

end QueryNames

def main (arguments : List String) : IO UInt32 := do
  let paths :=
    match QueryNames.CommandLine.Command.ofArguments arguments with
    | .ok command => command.paths
    | .error _ => []
  let outcome := QueryNames.CommandLine.run (← QueryNames.readAll paths) arguments
  outcome.printed.forM fun line => IO.println line
  outcome.complaint.forM fun line => IO.eprintln line
  return UInt32.ofNat outcome.exitCode
