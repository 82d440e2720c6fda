import QueryBook.FileTree
import QueryBook.Toml.Reader
import QueryBook.Toml.Writer

/-!
# Settings

The settings of a project are a TOML file. Keys without a meaning are ignored, absent ones have
defaults, and relative paths are relative to the directory of the file.
-/

namespace QueryBook

/-- Whether and how generated code is formatted. -/
structure FormatSettings where
  enabled : Bool := true
  /-- The command of the formatter, which reads the code and writes it formatted. -/
  command : String := "gofmt"
  deriving DecidableEq

/-- The settings of a project. -/
structure Settings where
  /-- The name or the import path of the package to generate. -/
  package : Option String := none
  /-- The directory generated files go to. -/
  out : Option Path := none
  /-- Imports beyond the standard ones. -/
  imports : List String := []
  format : FormatSettings := {}
  /-- The directory of the settings file. -/
  root : Path := ""
  deriving DecidableEq

/-- Why settings cannot be used. -/
inductive SettingsError where
  | unreadable (error : FileError)
  | malformed
  deriving DecidableEq

/-- The wording of the failure. -/
def SettingsError.text : SettingsError → String
  | unreadable e => "IO error: " ++ e.text
  | malformed => "Parse error: malformed settings"

namespace Settings

/-- The name of the settings file that is used if no other is given. -/
def fileName : Path := "sqlgen.toml"

/-- The directory generated files go to, seen from where the settings file was. -/
def outDirectory (s : Settings) : Option Path := s.out.map s.root.join

/-! ## Reading -/

/-- The value of a key, or the default if the key is absent. -/
def valueOr {α : Type} (read : Toml.Value → Option α) (default : α) (entries : Toml.Entries)
    (key : String) : Option α :=
  match entries.lookup key with
  | none => some default
  | some value => read value

/-- An item of an array, or the default if the array is too short. -/
def itemOr {α : Type} (read : Toml.Value → Option α) (default : α) (items : List Toml.Value)
    (index : Nat) : Option α :=
  match items[index]? with
  | none => some default
  | some value => read value

/-- Format settings: a table, or an array of the values in order. A point in time holds none of the
keys. -/
def readFormat : Toml.Value → Option FormatSettings
  | .table _ entries => do
    let enabled ← valueOr (·.boolean?) ({} : FormatSettings).enabled entries "enabled"
    let command ← valueOr (·.string?) ({} : FormatSettings).command entries "command"
    some { enabled, command }
  | .array items | .tables items => do
    let enabled ← itemOr (·.boolean?) ({} : FormatSettings).enabled items 0
    let command ← itemOr (·.string?) ({} : FormatSettings).command items 1
    some { enabled, command }
  | .dateTime _ => some {}
  | _ => none

/-- A list of strings. -/
def readStrings (value : Toml.Value) : Option (List String) :=
  value.items?.bind fun items => items.mapM (·.string?)

/-- The settings that a table holds. -/
def ofEntries? (entries : Toml.Entries) : Option Settings := do
  let package ← valueOr (fun v => v.string?.map some) none entries "package"
  let out ← valueOr (fun v => v.string?.map some) none entries "out"
  let imports ← valueOr readStrings [] entries "imports"
  let format ← valueOr readFormat {} entries "format"
  some { package, out, imports, format }

/-- The settings of a text. -/
def ofToml? (text : String) : Option Settings := (Toml.parse? text).bind ofEntries?

/-- The settings of a file. -/
def load (files : FileTree) (path : Path) : Except SettingsError Settings := do
  let text ← (files.read path).mapError .unreadable
  match ofToml? text with
  | some settings => .ok { settings with root := path.parent?.getD "" }
  | none => .error .malformed

/-! ## Writing -/

/-- The text of settings, which says nothing about the directory they lie in. -/
def toToml (s : Settings) : String :=
  let optional (key : String) (value : Option String) : String :=
    match value with
    | some text => Toml.writePair key (Toml.writeString text)
    | none => ""
  optional "package" s.package ++ optional "out" s.out ++
    Toml.writePair "imports" (Toml.writeStrings s.imports) ++ "\n[format]\n" ++
    Toml.writePair "enabled" (Toml.writeBoolean s.format.enabled) ++
    Toml.writePair "command" (Toml.writeString s.format.command)

end Settings

end QueryBook
