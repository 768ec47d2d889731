import QueryNames.Encoding.QueryText
import QueryNames.Failure
import QueryNames.Files.Entry

/-!
Reading the text of a query file.
-/

namespace QueryNames.Files

def queryText? (files : FileSystem) (path : String) : Option String :=
  match files path with
  | some (.file content) => Encoding.queryText? content
  | _ => none

def queryText (files : FileSystem) (path : String) : Except Failure String :=
  match queryText? files path with
  | some text => .ok text
  | none => .error (.unreadableQueryFile path)

theorem queryText_eq_ok_iff {files : FileSystem} {path text : String} :
    queryText files path = .ok text ↔
      ∃ content, files path = some (.file content) ∧ Encoding.queryText? content = some text := by
  unfold queryText queryText?
  split <;> rename_i h <;> split at h <;> simp_all

end QueryNames.Files
