import QueryBook.CommandLine.Arguments
import QueryBook.CommandLine.Canonicalize
import QueryBook.CommandLine.SettingsFile
import QueryBook.Formatter.Programs

/-!
# Running the command line

An invocation is carried out on a session; what comes of it is a status and the session afterwards.
-/

namespace QueryBook

/-- How a run ends. -/
inductive ExitStatus where
  | success
  /-- The command failed. -/
  | failure
  /-- The arguments were not understood. -/
  | usage
  deriving DecidableEq

/-- The number of a status. -/
def ExitStatus.code : ExitStatus → Nat
  | success => 0
  | failure => 1
  | usage => 2

namespace Invocation

/-- What an invocation does. -/
def command [Diagnosis] (programs : String → Option Formatter.Program) (i : Invocation) :
    Command Unit :=
  match i.request with
  | .generate options => do
    Command.generate programs (← Command.loadSettings i.settings i.verbose) options i.verbose
  | .check paths json => do
    Command.check (← Command.loadSettings i.settings i.verbose) paths json
  | .canonicalize paths write => Command.canonicalize paths write
  | .createSettings force => Command.createSettings (i.settings.getD Settings.fileName) force

/-- Carries out an invocation; a failure is reported. -/
def run [Diagnosis] (programs : String → Option Formatter.Program) (i : Invocation) (s : Session) :
    ExitStatus × Session :=
  match (i.command programs).run s with
  | (.ok (), s') => (.success, s')
  | (.error f, s') => (.failure, { s' with reports := s'.reports ++ f.lines })

end Invocation

namespace Session

/-- How the program names itself and its version. -/
def versionText : String := "sqlgen 0.1.0\n"

/-- How the program is used. -/
def helpText : String :=
  "Usage: sqlgen [-c PATH] [-v] [COMMAND]\n\n" ++
    "Commands:\n" ++
    "  generate [-o DIR] [-n NAME] [-i IMPORT]... [PATH]...\n" ++
    "  check [--json] [PATH]...\n" ++
    "  fmt [-w] [PATH]...\n" ++
    "  init [-f]\n"

/-- Runs the program with arguments. -/
def run [Diagnosis] (arguments : List String) (s : Session) : ExitStatus × Session :=
  match Invocation.ofArguments arguments with
  | .ok i => i.run Formatter.standardPrograms s
  | .error .version => (.success, { s with output := s.output ++ versionText })
  | .error .help => (.success, { s with output := s.output ++ helpText })
  | .error .usage => (.usage, { s with reports := s.reports ++ ["error: invalid arguments"] })

end Session

end QueryBook
