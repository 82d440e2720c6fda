import QueryBook.CommandLine.Session

/-!
# The settings file of a run

A settings file is made with the defaults, and loaded before documents are read.
-/

namespace QueryBook.Command

/-- Writes a settings file with the defaults. -/
def createSettings (path : Path) (force : Bool) : Command Unit := do
  if (← files).existsAt path && !force then throw (.settingsExist path)
  change (.saveSettings path) fun files => files.write path ({} : Settings).toToml
  report s!"✓ Created {path}"

/-- The settings of a run: those of the file that is named, else of the usual file if it is there,
else the defaults. -/
def loadSettings (path : Option Path) (verbose : Bool) : Command Settings := do
  let files ← files
  let load (path : Path) : Command Settings :=
    match Settings.load files path with
    | .ok settings => return settings
    | .error e => throw (.settings path e)
  match path with
  | some path => load path
  | none =>
    if files.existsAt Settings.fileName then load Settings.fileName
    else
      if verbose then report "No config file found, using defaults"
      return {}

end QueryBook.Command
