/-!
Parameters of a command: flags, and those that take a value. They are given by a long name or by a
letter, and letters can stand in one argument, the last one with its value.
-/

namespace QueryNames.CommandLine

inductive Parameter where
  | verbose
  | help
  | version
  | query
  | file
  | package
  | structural
  | path
  deriving DecidableEq, Repr

/-- What follows a parameter. -/
inductive ValueKind where
  | none
  | text
  /-- A text that may not be empty. -/
  | path
  deriving DecidableEq, Repr

namespace Parameter

def longName : Parameter → String
  | .verbose => "verbose"
  | .help => "help"
  | .version => "version"
  | .query => "query"
  | .file => "file"
  | .package => "dacpac"
  | .structural => "structural"
  | .path => "path"

def letter? : Parameter → Option Char
  | .verbose => some 'v'
  | .help => some 'h'
  | .version => some 'V'
  | .query => some 'q'
  | .file => some 'f'
  | .package => some 'd'
  | .structural => none
  | .path => some 'p'

def valueKind : Parameter → ValueKind
  | .query => .text
  | .file | .package | .path => .path
  | _ => .none

end Parameter

/-- Why no command is carried out. -/
inductive Stop where
  | misused
  | help
  | version
  deriving DecidableEq, Repr

/-- Parameters with their values; that of a flag is empty. -/
abbrev Given := List (Parameter × String)

/-- A parameter can be given once. The questions for help and for the version end it all. -/
def Given.add (given : Given) (parameter : Parameter) (value : String) : Except Stop Given :=
  match parameter with
  | .help => .error .help
  | .version => .error .version
  | _ =>
      if (given.lookup parameter).isSome || (parameter.valueKind == .path && value.isEmpty) then
        .error .misused
      else .ok (given ++ [(parameter, value)])

/-- An argument by how it begins. -/
inductive Word where
  | free
  | separator
  | long (name : String) (value? : Option String)
  | letters (text : List Char)
  deriving DecidableEq, Repr

def Word.ofString (argument : String) : Word :=
  match argument.toList with
  | ['-', '-'] => .separator
  | '-' :: '-' :: text =>
      let value? :=
        match text.dropWhile (· != '=') with
        | [] => none
        | _ :: value => some (String.ofList value)
      .long (String.ofList (text.takeWhile (· != '='))) value?
  | '-' :: c :: text => .letters (c :: text)
  | _ => .free

/-- Reads letters; a parameter is left over if its value is still to come. -/
def readLetters (known : List Parameter) (given : Given) :
    List Char → Except Stop (Given × Option Parameter)
  | [] => .ok (given, none)
  | c :: text =>
      match known.find? (·.letter? == some c) with
      | none => .error .misused
      | some parameter =>
          if parameter.valueKind = .none then do
            readLetters known (← given.add parameter "") text
          else
            match text with
            | [] => .ok (given, some parameter)
            | '=' :: value => do return (← given.add parameter (String.ofList value), none)
            | value => do return (← given.add parameter (String.ofList value), none)

def readLong (known : List Parameter) (given : Given) (name : String) (value? : Option String) :
    Except Stop (Given × Option Parameter) :=
  match known.find? (·.longName == name) with
  | none => .error .misused
  | some parameter =>
      match value? with
      | some value =>
          if parameter.valueKind = .none then .error .misused
          else do return (← given.add parameter value, none)
      | none =>
          if parameter.valueKind = .none then do return (← given.add parameter "", none)
          else .ok (given, some parameter)

/-- Reads parameters up to the first free argument; behind a separator there may be none. -/
def readParameters (known : List Parameter) (given : Given) :
    List String → Except Stop (Given × List String)
  | [] => .ok (given, [])
  | argument :: arguments => do
      match Word.ofString argument with
      | .free => return (given, argument :: arguments)
      | .separator => if arguments.isEmpty then return (given, []) else .error .misused
      | .long name value? => continueWith (← readLong known given name value?) arguments
      | .letters text => continueWith (← readLetters known given text) arguments
where
  continueWith : Given × Option Parameter → List String → Except Stop (Given × List String)
    | (given, none), arguments => readParameters known given arguments
    | (_, some _), [] => .error .misused
    | (given, some parameter), value :: arguments =>
        if Word.ofString value = .free then do
          readParameters known (← given.add parameter value) arguments
        else .error .misused

end QueryNames.CommandLine
