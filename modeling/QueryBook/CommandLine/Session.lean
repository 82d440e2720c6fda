import QueryBook.CommandLine.Failure

/-!
# Sessions

A session is what commands work on: the files, and what has been printed and reported. A command
that fails leaves the session as it was when it failed.
-/

namespace QueryBook

/-- The state that a command works on. -/
structure Session where
  files : FileTree
  /-- The text printed. -/
  output : String := ""
  /-- The lines reported on the side. -/
  reports : List String := []
  deriving DecidableEq

/-- An action on a session that can fail. -/
abbrev Command (α : Type) : Type := ExceptT Failure (StateM Session) α

namespace Command

/-- The files as they are. -/
def files : Command FileTree := do
  return (← get).files

/-- Prints a text. -/
def print (text : String) : Command Unit :=
  modify fun s => { s with output := s.output ++ text }

/-- Reports a line. -/
def report (line : String) : Command Unit :=
  modify fun s => { s with reports := s.reports ++ [line] }

/-- Changes the files; a change that is not possible is a failure. -/
def change (failure : FileError → Failure) (step : FileTree → Except FileError FileTree) :
    Command Unit := do
  match step (← files) with
  | .ok files => modify fun s => { s with files }
  | .error e => throw (failure e)

/-- Carries out a command on a session. -/
def run {α : Type} (c : Command α) (s : Session) : Except Failure α × Session :=
  StateT.run (ExceptT.run c) s

end Command

end QueryBook
