import QueryNames.CommandLine.Parameter
import QueryNames.Resolution

/-!
Commands and how they are written as arguments.
-/

namespace QueryNames.CommandLine

/-- Where a query comes from. -/
inductive Input where
  | text (text : String)
  | file (path : String)
  deriving DecidableEq, Repr

inductive Command where
  | tables (input : Input)
  | fields (input : Input)
  | resolve (input : Input) (package : String) (detection : WildcardDetection)
  | check (path : String)
  deriving DecidableEq, Repr

/-- The paths at which a command may have to look. -/
def Input.paths : Input → List String
  | .text _ => []
  | .file path => [path]

def Command.paths : Command → List String
  | .tables input | .fields input => input.paths
  | .resolve input package _ => input.paths ++ [package]
  | .check path => [path]

inductive Verb where
  | tables
  | fields
  | resolve
  | check
  deriving DecidableEq, Repr

namespace Verb

def ofString? : String → Option Verb
  | "tables" => some .tables
  | "fields" => some .fields
  | "resolve" => some .resolve
  | "check" => some .check
  | _ => none

def parameters : Verb → List Parameter
  | .tables | .fields => [.verbose, .help, .query, .file]
  | .resolve => [.verbose, .help, .query, .file, .package, .structural]
  | .check => [.verbose, .help, .path]

end Verb

namespace Given

/-- A query is given either as text or as a file. -/
def input? (given : Given) : Option Input :=
  match given.lookup .query, given.lookup .file with
  | some text, none => some (.text text)
  | none, some path => some (.file path)
  | _, _ => none

def detection (given : Given) : WildcardDetection :=
  if (given.lookup .structural).isSome then .structural else .textual

def command? (given : Given) : Verb → Option Command
  | .tables => (input? given).map .tables
  | .fields => (input? given).map .fields
  | .resolve => do return .resolve (← input? given) (← given.lookup .package) (detection given)
  | .check => (given.lookup .path).map .check

end Given

namespace Command

def ofVerb (verb : Verb) (arguments : List String) : Except Stop Command := do
  match ← readParameters verb.parameters [] arguments with
  | (given, []) => (given.command? verb).elim (.error .misused) .ok
  | _ => .error .misused

/-- Help can be asked for as a whole or for a command. -/
def asksForHelp : List String → Bool
  | [] => true
  | [word] => word == "help" || (Verb.ofString? word).isSome
  | _ => false

def ofArguments (arguments : List String) : Except Stop Command := do
  match ← readParameters [.verbose, .help, .version] [] arguments with
  | (_, []) => .error .misused
  | (_, word :: arguments) =>
      match Verb.ofString? word with
      | some verb => ofVerb verb arguments
      | none =>
          if word = "help" && asksForHelp arguments then .error .help else .error .misused

end Command

end QueryNames.CommandLine
