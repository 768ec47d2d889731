import QueryNames.CommandLine.Command
import QueryNames.Report
import QueryNames.Schema.Package

/-!
What a command does: the lines that it prints, what it complains of, and its exit code.
-/

namespace QueryNames.CommandLine

/-- Why a command that was understood is not answered. -/
inductive CommandError where
  | failure (cause : Failure)
  | unresolved (package : String) (cause : Failure)
  | noQueryFiles (path : String)
  deriving DecidableEq, Repr

namespace CommandError

def message : CommandError → String
  | .failure cause => cause.message
  | .unresolved package _ => "Failed to resolve columns from " ++ package
  | .noQueryFiles path => "No .sql files found in " ++ path

/-- The lines of a complaint: the message, and what lies behind it. -/
def complaint (error : CommandError) : List String :=
  let causes :=
    match error with
    | .unresolved _ cause => ["", "Caused by:", "    " ++ cause.message]
    | _ => []
  ("Error: " ++ error.message) :: causes

end CommandError

structure Outcome where
  exitCode : Nat
  printed : List String
  complaint : List String
  deriving DecidableEq, Repr

namespace Outcome

def success (printed : List String) : Outcome := ⟨0, printed, []⟩

def usage : List String :=
  ["Usage: query-disassembler [-v] <command>", "",
    "  tables   (-q <query> | -f <file>)", "  fields   (-q <query> | -f <file>)",
    "  resolve  (-q <query> | -f <file>) -d <dacpac> [--structural]", "  check    -p <path>"]

def ofStop : Stop → Outcome
  | .misused => ⟨2, [], usage⟩
  | .help => success usage
  | .version => success ["query-disassembler 0.1.0"]

end Outcome

def Input.read (files : Files.FileSystem) : Input → Except CommandError String
  | .text query => .ok query
  | .file path => (Files.queryText files path).mapError .failure

def resolvedFields (files : Files.FileSystem) (input : Input) (path : String)
    (detection : WildcardDetection) : Except CommandError (List String) := do
  let package ← (Package.ofPath path).mapError .failure
  let text ← input.read files
  (resolveFieldNames (package.provider files) detection text).mapError (.unresolved path)

def reports (files : Files.FileSystem) (path : String) : Except CommandError (List Report) :=
  match Files.discover files path with
  | [] => .error (.noQueryFiles path)
  | found => (Report.ofFiles files found).mapError .failure

/-- The reports, an empty line and the count of the files. -/
def Outcome.ofReports (reports : List Report) : Outcome :=
  let broken := (reports.filter (!·.isClean)).length
  let count := toString reports.length ++ " files, " ++ toString broken ++ " with errors"
  ⟨if broken = 0 then 0 else 1, reports.flatMap Report.lines ++ ["", count], []⟩

def Command.outcome (files : Files.FileSystem) : Command → Except CommandError Outcome
  | .tables input => return .success (tableNames (← input.read files))
  | .fields input => return .success (fieldNames (← input.read files))
  | .resolve input package detection =>
      return .success (← resolvedFields files input package detection)
  | .check path => return .ofReports (← reports files path)

/-- Carries out what the arguments say. -/
def run (files : Files.FileSystem) (arguments : List String) : Outcome :=
  match Command.ofArguments arguments with
  | .error stop => .ofStop stop
  | .ok command =>
      match command.outcome files with
      | .ok outcome => outcome
      | .error error => ⟨1, [], error.complaint⟩

end QueryNames.CommandLine
