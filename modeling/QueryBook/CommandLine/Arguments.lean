import QueryBook.CommandLine.Generate

/-!
# Arguments

The arguments of the command line: a command, options before and behind it, and paths. Every option
that takes one value may be given once on either side of the command; behind the command counts.
-/

namespace QueryBook

/-! ## Invocations -/

/-- What is asked for. -/
inductive Request where
  | generate (options : GenerateOptions)
  | check (paths : List Path) (json : Bool)
  | canonicalize (paths : List Path) (write : Bool)
  | createSettings (force : Bool)
  deriving DecidableEq

/-- A request and what goes with all of them. -/
structure Invocation where
  /-- The settings file. -/
  settings : Option Path := none
  verbose : Bool := false
  request : Request
  deriving DecidableEq

/-- Why arguments are no invocation. -/
inductive Refusal where
  /-- They are not understood. -/
  | usage
  /-- They ask for the version. -/
  | version
  /-- They ask for help. -/
  | help
  deriving DecidableEq

/-! ## Options -/

/-- The options there are. -/
inductive OptionName where
  | settings
  | verbose
  | out
  | packageName
  | extraImport
  | json
  | write
  | force
  | help
  | version
  deriving DecidableEq

namespace OptionName

/-- The letter of an option, if it has one. -/
def letter? : OptionName → Option Char
  | settings => some 'c'
  | verbose => some 'v'
  | out => some 'o'
  | packageName => some 'n'
  | extraImport => some 'i'
  | json => none
  | write => some 'w'
  | force => some 'f'
  | help => some 'h'
  | version => some 'V'

/-- The word of an option. -/
def word : OptionName → String
  | settings => "config"
  | verbose => "verbose"
  | out => "out"
  | packageName => "name"
  | extraImport => "import"
  | json => "json"
  | write => "write"
  | force => "force"
  | help => "help"
  | version => "version"

/-- Whether an option takes a value. -/
def takesValue : OptionName → Bool
  | settings | out | packageName | extraImport => true
  | _ => false

/-- Whether the value of an option is a path, which cannot be empty. -/
def takesPath : OptionName → Bool
  | settings | out => true
  | _ => false

/-- Whether an option may be repeated. -/
def isRepeatable : OptionName → Bool
  | extraImport => true
  | _ => false

end OptionName

/-- Where arguments stand: before a command, or behind it. -/
inductive Scope where
  | start
  | generate
  | check
  | canonicalize
  | createSettings
  deriving DecidableEq

namespace Scope

/-- The scope behind a command's name. -/
def ofCommand? : String → Option Scope
  | "generate" => some generate
  | "check" => some check
  | "fmt" => some canonicalize
  | "init" => some createSettings
  | _ => none

/-- The options that a scope knows. -/
def options : Scope → List OptionName
  | start => [.settings, .verbose, .help, .version]
  | generate => [.settings, .verbose, .help, .out, .packageName, .extraImport]
  | check => [.settings, .verbose, .help, .json]
  | canonicalize => [.settings, .verbose, .help, .write]
  | createSettings => [.settings, .verbose, .help, .force]

/-- Whether a scope takes paths. -/
def takesPaths : Scope → Bool
  | start | createSettings => false
  | generate | check | canonicalize => true

end Scope

/-! ## Reading -/

/-- What has been read in a scope. -/
structure Arguments where
  /-- The options and their values; those without a value have an empty one. -/
  given : List (OptionName × String) := []
  paths : List Path := []
  /-- The option whose value comes next. -/
  pending : Option OptionName := none
  /-- Whether only paths follow. -/
  onlyPaths : Bool := false
  deriving DecidableEq

namespace Arguments

/-- The arguments with an option. -/
def give (a : Arguments) (name : OptionName) (value : String) : Except Refusal Arguments :=
  match name with
  | .help => .error .help
  | .version => .error .version
  | _ =>
    if (a.given.lookup name).isSome && !name.isRepeatable then .error .usage
    else if name.takesPath && value = "" then .error .usage
    else .ok { a with given := a.given ++ [(name, value)], pending := none }

/-- Reads the letters behind a dash. An option with a value takes the rest for it, less an equals
sign in front; without a rest its value comes next. -/
def readLetters (scope : Scope) (a : Arguments) : List Char → Except Refusal Arguments
  | [] => .ok a
  | c :: rest => do
    match scope.options.find? fun o => o.letter? = some c with
    | none => .error .usage
    | some name =>
      if name.takesValue then
        match rest with
        | [] => .ok { a with pending := some name }
        | '=' :: value => a.give name (String.ofList value)
        | value => a.give name (String.ofList value)
      else readLetters scope (← a.give name "") rest

/-- Reads the word behind two dashes. A value may follow behind an equals sign. -/
def readWord (scope : Scope) (a : Arguments) (text : List Char) : Except Refusal Arguments :=
  let word := String.ofList (text.takeWhile (· ≠ '='))
  match scope.options.find? fun o => o.word = word, text.dropWhile (· ≠ '=') with
  | none, _ => .error .usage
  | some name, _ :: value =>
    if name.takesValue then a.give name (String.ofList value) else .error .usage
  | some name, [] =>
    if name.takesValue then .ok { a with pending := some name } else a.give name ""

/-- Whether an argument is read as an option; a single dash is not. -/
def isOption (argument : String) : Bool :=
  argument ≠ "-" && argument.toList.head? = some '-'

/-- Reads an argument that is a path. -/
def readPath (scope : Scope) (a : Arguments) (argument : String) : Except Refusal Arguments :=
  if scope.takesPaths && argument ≠ "" then .ok { a with paths := a.paths ++ [argument] }
  else .error .usage

/-- Reads an argument. -/
def read (scope : Scope) (a : Arguments) (argument : String) : Except Refusal Arguments :=
  match a.pending with
  | some name => if isOption argument then .error .usage else a.give name argument
  | none =>
    if a.onlyPaths || !isOption argument then a.readPath scope argument
    else
      match argument.toList with
      | ['-', '-'] => .ok { a with onlyPaths := true }
      | '-' :: '-' :: text => a.readWord scope text
      | _ :: letters => a.readLetters scope letters
      | [] => .error .usage

/-- The arguments read to the end: no value is missing. -/
def close (a : Arguments) : Except Refusal Arguments :=
  if a.pending.isSome then .error .usage else .ok a

/-- Reads the arguments behind a command. -/
def readAll (scope : Scope) (arguments : List String) : Except Refusal Arguments := do
  (← arguments.foldlM (read scope) {}).close

/-! ## Values -/

/-- Whether an option is given. -/
def has (a : Arguments) (name : OptionName) : Bool := (a.given.lookup name).isSome

/-- The value of an option. -/
def value? (a : Arguments) (name : OptionName) : Option String := a.given.lookup name

/-- The values of an option in order. -/
def values (a : Arguments) (name : OptionName) : List String :=
  (a.given.filter fun g => g.1 = name).map (·.2)

/-- The paths given, or the working directory. -/
def pathsOrHere (a : Arguments) : List Path := if a.paths.isEmpty then ["."] else a.paths

/-- The request that the arguments behind a command make. -/
def request (scope : Scope) (a : Arguments) : Request :=
  match scope with
  | .check => .check a.pathsOrHere (a.has .json)
  | .canonicalize => .canonicalize a.pathsOrHere (a.has .write)
  | .createSettings => .createSettings (a.has .force)
  | .start | .generate =>
    .generate
      { paths := a.pathsOrHere, out := a.value? .out, name := a.value? .packageName,
        imports := a.values .extraImport }

end Arguments

namespace Invocation

/-- The refusal of a command line that begins with the help command: help, if what follows names at
most one command. -/
def helpOn : List String → Refusal
  | [] => .help
  | [name] => if name = "help" || (Scope.ofCommand? name).isSome then .help else .usage
  | _ => .usage

/-- Reads arguments up to the command and behind it. -/
def readFrom (before : Arguments) : List String → Except Refusal Invocation
  | [] => do
    let a ← before.close
    return {
      settings := a.value? .settings
      verbose := a.has .verbose
      request := a.request .start }
  | argument :: rest => do
    if before.pending.isSome || before.onlyPaths || Arguments.isOption argument then
      readFrom (← before.read .start argument) rest
    else if argument = "help" then .error (helpOn rest)
    else
      match Scope.ofCommand? argument with
      | none => .error .usage
      | some scope =>
        let a ← Arguments.readAll scope rest
        return {
          settings := (a.value? .settings).or (before.value? .settings)
          verbose := a.has .verbose || before.has .verbose
          request := a.request scope }

/-- The invocation that arguments make. -/
def ofArguments (arguments : List String) : Except Refusal Invocation := readFrom {} arguments

end Invocation

end QueryBook
