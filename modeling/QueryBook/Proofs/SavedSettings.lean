import QueryBook.Proofs.PathSpellings
import QueryBook.Proofs.TomlLines
import QueryBook.Settings

/-!
# Saved settings

Settings that are saved are loaded again, whatever texts they hold: the lines that are written lead
to the entries that the settings are read from. Only the directory is that of the file.
-/

namespace QueryBook

/-! ## Files -/

/-- The root is the last component only of the path to it. -/
theorem Path.components_eq_root {p : Path} (h : p.components.getLast? = some .root) :
    p.components = [.root] := by
  have habsolute : p.isAbsolute = true := isAbsolute_iff.mpr (List.mem_of_getLast? h)
  have hcomponents : p.components = .root :: p.inner := if_pos habsolute
  have hnil : p.inner = [] := by
    by_contra hne
    obtain ⟨c, rest, hinner⟩ := List.exists_cons_of_ne_nil hne
    rw [hcomponents, hinner, List.getLast?_cons_cons, ← hinner] at h
    exact (ne_of_mem_filterMap (List.mem_of_getLast? h)).1 rfl
  rw [hcomponents, hnil]

namespace FileTree

variable {t t' : FileTree} {p : Path} {text : String}

/-- A file that is written reads as it was written. -/
theorem read_of_write_self (h : t.write p text = .ok t') : t'.read p = .ok text := by
  obtain ⟨location, hl, hf, -⟩ := find?_of_write h
  exact read_eq_ok.mpr
    ⟨location, (locate_eq_ok_of_sameDirectories (sameDirectories_of_write h)).mp hl, hf⟩

/-- A file that is written lies in a directory. -/
theorem exists_parent?_of_write (h : t.write p text = .ok t') : ∃ q, p.parent? = some q := by
  obtain ⟨-, location, hl, hd, -⟩ := write_eq_ok.mp h
  unfold Path.parent?
  dsimp only
  split
  · next hlast =>
    rw [List.getLast?_eq_none_iff, Path.components_eq_nil_iff] at hlast
    rw [hlast] at hl
    cases hl
  · next hlast =>
    -- the path is a spelling of the root, which is no file
    have hsame : Path.same "/" p :=
      Path.same_iff.mpr (by rw [Path.components_eq_root hlast]; decide)
    have hroot : t.locate p = .ok [] := ((directory_iff_of_same hsame).mp ⟨rfl, rfl⟩).1
    rw [hroot] at hl
    cases hl
    exact absurd rfl hd
  · exact ⟨_, rfl⟩

end FileTree

/-! ## Texts -/

namespace Settings

open Toml

/-- The line of a setting that may be absent. -/
def optionalLine (key : String) (value : Option String) : String :=
  (value.map fun text => writePair key (writeString text)).getD ""

/-- The entry of a setting that may be absent. -/
def optionalEntry (key : String) (value : Option String) : Entries :=
  (value.map fun text => (key, Value.string text)).toList

/-- The entries of settings before the table of the format settings. -/
def plainEntries (s : Settings) : Entries :=
  optionalEntry "package" s.package ++ optionalEntry "out" s.out ++
    [("imports", .array (s.imports.map .string))]

/-- The entries that settings are saved as. -/
def savedEntries (s : Settings) : Entries :=
  s.plainEntries ++ [("format", .table .header
    [("enabled", .boolean s.format.enabled), ("command", .string s.format.command)])]

variable {key : String} {value : Option String} {entries : Entries}

theorem toToml_eq (s : Settings) : s.toToml =
    optionalLine "package" s.package ++ optionalLine "out" s.out ++
      writePair "imports" (writeStrings s.imports) ++ "\n[format]\n" ++
      writePair "enabled" (writeBoolean s.format.enabled) ++
      writePair "command" (writeString s.format.command) := by
  unfold toToml
  cases s.package <;> cases s.out <;> rfl

/-- An absent setting adds neither a line nor an entry. -/
theorem leads_optional (hkey : IsBareKey key) (habsent : entries.lookup key = none) :
    Leads { entries } (optionalLine key value).toList
      { entries := entries ++ optionalEntry key value } := by
  cases value with
  | none => simpa [optionalLine, optionalEntry] using Leads.nil { entries }
  | some text => exact leads_pair hkey (isWritten_string _ text) (Entries.addValue_root habsent)

theorem lookup_optionalEntry_of_ne {other : String} (h : other ≠ key) :
    (optionalEntry key value).lookup other = none := by
  cases value with
  | none => rfl
  | some text =>
    have hne : (other == key) = false := by simp [h]
    simp [optionalEntry, List.lookup_cons, hne]

/-- **The lines of settings lead to their entries.** -/
theorem leads_toToml (s : Settings) :
    Leads {} s.toToml.toList { header := ["format"], entries := s.savedEntries } := by
  have hpackage : Leads {} (optionalLine "package" s.package).toList
      { entries := optionalEntry "package" s.package } := leads_optional (by decide) rfl
  have hout : Leads { entries := optionalEntry "package" s.package }
      (optionalLine "out" s.out).toList
      { entries := optionalEntry "package" s.package ++ optionalEntry "out" s.out } :=
    leads_optional (by decide) (lookup_optionalEntry_of_ne (by decide))
  have himports : Leads
      { entries := optionalEntry "package" s.package ++ optionalEntry "out" s.out }
      (writePair "imports" (writeStrings s.imports)).toList { entries := s.plainEntries } :=
    leads_pair (by decide) (isWritten_strings _ s.imports)
      (Entries.addValue_root (by simp [List.lookup_append, lookup_optionalEntry_of_ne]))
  have hformat : s.plainEntries.lookup "format" = none := by
    simp [plainEntries, List.lookup_append, lookup_optionalEntry_of_ne]
  have hheader : Leads { entries := s.plainEntries } "\n[format]\n".toList
      { header := ["format"], entries := s.plainEntries ++ [("format", .table .header [])] } :=
    (leads_blank _).append
      (leads_header (show IsBareKey "format" by decide) (Entries.openTable_root hformat))
  have henabled : Leads
      { header := ["format"], entries := s.plainEntries ++ [("format", .table .header [])] }
      (writePair "enabled" (writeBoolean s.format.enabled)).toList
      { header := ["format"], entries := s.plainEntries ++
        [("format", .table .header [("enabled", .boolean s.format.enabled)])] } :=
    leads_pair (by decide) (isWritten_boolean _ _) (Entries.addValue_header hformat rfl)
  have hcommand : Leads
      { header := ["format"], entries := s.plainEntries ++
        [("format", .table .header [("enabled", .boolean s.format.enabled)])] }
      (writePair "command" (writeString s.format.command)).toList
      { header := ["format"], entries := s.savedEntries } :=
    leads_pair (by decide) (isWritten_string _ _) (Entries.addValue_header hformat rfl)
  -- the text is put together from the left
  rw [toToml_eq]
  simp only [String.toList_append]
  exact ((((hpackage.append hout).append himports).append hheader).append henabled).append hcommand

theorem parse?_toToml (s : Settings) : parse? s.toToml = some s.savedEntries := by
  refine parse?_of_leads s.leads_toToml ?_
  rw [toToml_eq]
  cases s.package <;> cases s.out <;> simp [optionalLine, writePair]

theorem valueOr_text (h : entries.lookup key = value.map .string) :
    valueOr (fun v => v.string?.map some) none entries key = some value := by
  rw [valueOr, h]
  cases value <;> rfl

theorem readStrings_array (texts : List String) :
    readStrings (.array (texts.map .string)) = some texts := by
  have hitems : (texts.map Value.string).mapM (·.string?) = some texts := by
    induction texts with
    | nil => rfl
    | cons text texts ih => rw [List.map_cons, List.mapM_cons, ih]; rfl
  exact hitems

/-- **Settings are read back from their entries.** -/
theorem ofEntries?_savedEntries (s : Settings) :
    ofEntries? s.savedEntries = some { s with root := "" } := by
  have hpackage : s.savedEntries.lookup "package" = s.package.map .string := by
    rcases s with ⟨_ | _, _ | _, _⟩ <;> rfl
  have hout : s.savedEntries.lookup "out" = s.out.map .string := by
    rcases s with ⟨_ | _, _ | _, _⟩ <;> rfl
  have himports : s.savedEntries.lookup "imports" = some (.array (s.imports.map .string)) := by
    rcases s with ⟨_ | _, _ | _, _⟩ <;> rfl
  have hformat : s.savedEntries.lookup "format" = some (.table .header
      [("enabled", .boolean s.format.enabled), ("command", .string s.format.command)]) := by
    rcases s with ⟨_ | _, _ | _, _⟩ <;> rfl
  have hread : valueOr readFormat {} s.savedEntries "format" = some s.format := by
    rw [valueOr, hformat]
    rfl
  have hstrings : valueOr readStrings [] s.savedEntries "imports" = some s.imports := by
    rw [valueOr, himports]
    exact readStrings_array s.imports
  rw [ofEntries?, valueOr_text hpackage, valueOr_text hout, hstrings, hread]
  rfl

theorem ofToml?_toToml (s : Settings) : ofToml? s.toToml = some { s with root := "" } := by
  rw [ofToml?, parse?_toToml, Option.bind_some, ofEntries?_savedEntries]

/-- **Saved settings are loaded again**, with the directory of the file they are saved in. -/
theorem load_of_write {s : Settings} {files files' : FileTree} {path : Path}
    (h : files.write path s.toToml = .ok files') :
    ∃ directory, path.parent? = some directory ∧
      load files' path = .ok { s with root := directory } := by
  obtain ⟨directory, hdirectory⟩ := FileTree.exists_parent?_of_write h
  refine ⟨directory, hdirectory, ?_⟩
  rw [load, FileTree.read_of_write_self h]
  simp only [Except.mapError, bind, Except.bind, ofToml?_toToml, hdirectory, Option.getD_some]

/-- Settings whose texts need every form of strings. -/
def awkward : Settings where
  package := "say \"it's\" twice\\"
  imports := ["", "c:\\go", "first\nsecond", "\"\"\"\u0007'''"]
  format := { enabled := false, command := "\r\n\"" }
  root := "elsewhere"

/-- They are loaded from where they are saved, not from where they were. -/
theorem load_of_write_awkward : ∃ files' : FileTree,
    FileTree.write ⟨[(["work"], .directory)], []⟩ "/work/settings.toml" awkward.toToml =
      .ok files' ∧
    load files' "/work/settings.toml" = .ok { awkward with root := "/work" } := by
  obtain ⟨files', hsaved⟩ : ∃ files', FileTree.write ⟨[(["work"], .directory)], []⟩
      "/work/settings.toml" awkward.toToml = .ok files' :=
    ⟨_, FileTree.write_eq_ok.mpr ⟨by decide +kernel, ["work", "settings.toml"],
      by decide +kernel, by decide +kernel, rfl⟩⟩
  obtain ⟨directory, hdirectory, hload⟩ := load_of_write hsaved
  have hparent : Path.parent? "/work/settings.toml" = some "/work" := by decide +kernel
  rw [hparent] at hdirectory
  obtain rfl := Option.some.inj hdirectory
  exact ⟨files', hsaved, hload⟩

end Settings

end QueryBook
