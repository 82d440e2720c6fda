import QueryBook.Proofs.CheckAndGenerate

/-!
# What a run writes

A run takes the documents in order. For each it writes one file, with formatted code, or with
unformatted code if the formatter is missing. It stops at the first document that has no code, which
leaves no file, or whose code the formatter refuses, which leaves the unformatted code. The library
file comes behind all documents. `generate_writes_in_order` puts this together, with what the run
leaves alone, and says that a missing formatter makes no difference to formatting being disabled.
-/

namespace QueryBook

/-! ## Formatters -/

namespace Formatter

/-- The formatter that settings ask for, given the programs there are. -/
def ofSettings (programs : String → Option Program) (f : FormatSettings) : Formatter :=
  if f.enabled then .ofCommand programs f.command else .verbatim

/-- Whether a formatter cannot be run, whatever the code. -/
def IsMissing (φ : Formatter) : Prop :=
  ∀ raw, ∃ command reason, φ raw = .error (.unavailable command reason)

/-- What is written for code: the code as it is unless it is formatted. -/
def textOf (φ : Formatter) (raw : String) : String :=
  match φ raw with
  | .ok text => text
  | .error _ => raw

/-- A command cannot be run exactly if it names no program that there is. -/
theorem isMissing_ofCommand {programs : String → Option Program} {command : String} :
    (ofCommand programs command).IsMissing ↔
      ∀ name arguments, words command = name :: arguments → programs name = none := by
  constructor
  · intro missing name arguments hwords
    obtain ⟨_, _, h⟩ := missing ""
    unfold ofCommand at h
    rw [hwords] at h
    dsimp only at h
    split at h
    · next hp => exact hp
    · next program _ =>
      cases hr : program arguments "" with
      | ok text =>
        rw [hr] at h
        cases h
      | error reason =>
        rw [hr] at h
        cases h
  · intro absent raw
    unfold ofCommand
    split
    · exact ⟨_, _, rfl⟩
    · next name arguments hwords =>
      rw [absent name arguments hwords]
      exact ⟨_, _, rfl⟩

end Formatter

/-! ## Files that are written one after the other -/

namespace FileTree

variable {t t' : FileTree} {log : List (Path × String)}

/-- The tree after writing files in order. -/
def writeAll (t : FileTree) (log : List (Path × String)) : Except FileError FileTree :=
  log.foldlM (fun t w => t.write w.1 w.2) t

theorem writeAll_append {log' : List (Path × String)} {t'' : FileTree}
    (h : t.writeAll log = .ok t') (h' : t'.writeAll log' = .ok t'') :
    t.writeAll (log ++ log') = .ok t'' := by
  unfold writeAll at h h' ⊢
  rw [List.foldlM_append, h]
  exact h'

theorem writeAll_singleton {p : Path} {text : String} (h : t.write p text = .ok t') :
    t.writeAll [(p, text)] = .ok t' := by
  show t.write p text >>= pure = _
  rw [h]
  rfl

/-- Writing files leaves the directories, and all that is elsewhere. -/
theorem frame_of_writeAll (h : t.writeAll log = .ok t') : SameDirectories t t' ∧
    ∀ location, (∀ w ∈ log, t.locate w.1 ≠ .ok location) → t'.find? location = t.find? location := by
  induction log generalizing t with
  | nil =>
    cases h
    exact ⟨.refl _, fun _ _ => rfl⟩
  | cons w log ih =>
    obtain ⟨next, hw, h⟩ := Reading.foldlM_cons_eq_ok.mp h
    obtain ⟨same, frame⟩ := ih h
    have first := sameDirectories_of_write hw
    refine ⟨first.trans same, ?_⟩
    intro location elsewhere
    obtain ⟨place, hl, -, others⟩ := find?_of_write hw
    have later : ∀ w ∈ log, next.locate w.1 ≠ .ok location := by
      intro w hw' he
      exact elsewhere w (List.mem_cons_of_mem _ hw')
        ((locate_eq_ok_of_sameDirectories first).mpr he)
    have ne : location ≠ place := by
      rintro rfl
      exact elsewhere w List.mem_cons_self hl
    rw [frame location later, others location ne]

end FileTree

/-! ## How a run goes -/

/-- The settings with formatting disabled. -/
def Settings.unformatted (settings : Settings) : Settings :=
  { settings with format := { settings.format with enabled := false } }

/-- The generator of a run whose formatter is given. -/
def GenerateOptions.generatorBy (o : GenerateOptions) (φ : Formatter) (settings : Settings)
    (files : FileTree) : Generator :=
  .new (o.packageSource settings files) (o.allImports settings) φ

namespace Command

/-- Generates the package with a formatter. -/
def generateBy [Diagnosis] (φ : Formatter) (settings : Settings) (options : GenerateOptions)
    (verbose : Bool) : Command Unit := do
  let documents ← findDocuments options.paths
  let out := options.outDirectory settings
  ensureDirectory out
  let g := options.generatorBy φ settings (← files)
  if verbose then report s!"Generating package {g.package}"
  let count ← generateDocuments g out verbose documents
  writeOutput .library (out.join libraryName) g.libraryFile
  report s!"✓ Generated {count} queries from {documents.length} documents into {out}"

/-- The unformatted code of a document, or why there is none: it is not read, it is no query
document, or its imports do not resolve. -/
def rawCode [Diagnosis] (g : Generator) (files : FileTree) (document : Path) :
    Except Failure String :=
  match Queries.load files document with
  | .error e => .error (.document document e)
  | .ok queries =>
    match g.imports.resolve queries.list with
    | .error e => .error (.accessors document (.unresolved e))
    | .ok imports =>
      .ok (Code.ofQueries g.metadata .standard (sourceName document) imports queries.list)

/-- What stops a run, if anything does. -/
def failure? {α : Type} : Except Failure α → Option Failure
  | .ok _ => none
  | .error f => some f

/-- What becomes of unformatted code that goes to a path: the file that is written, what stops the
run, and the files afterwards. -/
inductive Stores (φ : Formatter) (failure : OutputFailure → Failure) (path : Path) (raw : String)
    (files : FileTree) : List (Path × String) → Option Failure → FileTree → Prop
  | formatted {text : String} {next : FileTree} (code : φ raw = .ok text)
    (written : files.write path text = .ok next) :
    Stores φ failure path raw files [(path, text)] none next
  | unformatted {command reason : String} {next : FileTree}
    (code : φ raw = .error (.unavailable command reason))
    (written : files.write path raw = .ok next) :
    Stores φ failure path raw files [(path, raw)] none next
  | refused {reason : String} {next : FileTree} (code : φ raw = .error (.rejected reason))
    (written : files.write path raw = .ok next) :
    Stores φ failure path raw files [(path, raw)] (some (failure (.unformatted path reason))) next
  | unwritten {e : FileError} (unwritten : files.write path (φ.textOf raw) = .error e) :
    Stores φ failure path raw files [] (some (failure (.unwritten path e))) files

/-- How a run over documents goes: the files that are written in order, what stops the run, and the
files afterwards. Each document is read from the files that those before it leave. -/
inductive Proceeds [Diagnosis] (g : Generator) (out : Path) :
    FileTree → List Path → List (Path × String) → Option Failure → FileTree → Prop
  | done {files : FileTree} : Proceeds g out files [] [] none files
  | wrong {files : FileTree} {document : Path} {rest : List Path} {f : Failure}
    (code : rawCode g files document = .error f) :
    Proceeds g out files (document :: rest) [] (some f) files
  | stopped {files last : FileTree} {document : Path} {rest : List Path} {raw : String}
    {log : List (Path × String)} {f : Failure} (code : rawCode g files document = .ok raw)
    (stored : Stores g.formatter (.accessors document) (target out document) raw files log (some f)
      last) :
    Proceeds g out files (document :: rest) log (some f) last
  | cons {files next last : FileTree} {document : Path} {rest : List Path} {raw : String}
    {log log' : List (Path × String)} {stop : Option Failure}
    (code : rawCode g files document = .ok raw)
    (stored : Stores g.formatter (.accessors document) (target out document) raw files log none
      next)
    (others : Proceeds g out next rest log' stop last) :
    Proceeds g out files (document :: rest) (log ++ log') stop last

/-- How a run goes: documents are found, a directory for the output is made, the documents follow in
order, and behind them all the library. -/
inductive Generates [Diagnosis] (φ : Formatter) (settings : Settings) (options : GenerateOptions)
    (files : FileTree) : List (Path × String) → Option Failure → FileTree → Prop
  | nothing (found : DocumentSearch.run files options.paths = []) :
    Generates φ settings options files [] (some .noDocuments) files
  | noDirectory {e : FileError} (found : DocumentSearch.run files options.paths ≠ [])
    (directory : files.withDirectory (options.outDirectory settings) = .error e) :
    Generates φ settings options files [] (some (.outDirectory (options.outDirectory settings) e))
      files
  | stopped {start last : FileTree} {log : List (Path × String)} {f : Failure}
    (found : DocumentSearch.run files options.paths ≠ [])
    (directory : files.withDirectory (options.outDirectory settings) = .ok start)
    (documents : Proceeds (options.generatorBy φ settings start) (options.outDirectory settings)
      start (DocumentSearch.run files options.paths) log (some f) last) :
    Generates φ settings options files log (some f) last
  | library {start next last : FileTree} {log log' : List (Path × String)} {stop : Option Failure}
    (found : DocumentSearch.run files options.paths ≠ [])
    (directory : files.withDirectory (options.outDirectory settings) = .ok start)
    (documents : Proceeds (options.generatorBy φ settings start) (options.outDirectory settings)
      start (DocumentSearch.run files options.paths) log none next)
    (library : Stores φ .library ((options.outDirectory settings).join libraryName)
      (Code.library (options.generatorBy φ settings start).metadata) next log' stop last) :
    Generates φ settings options files (log ++ log') stop last

/-! ## Runs go so -/

variable {φ : Formatter} {g : Generator} {out document path : Path} {documents : List Path}
  {settings : Settings} {options : GenerateOptions} {verbose : Bool} {s s' : Session}
  {failure : OutputFailure → Failure} {raw : String} {files last : FileTree}
  {log : List (Path × String)} {stop : Option Failure}

/-- Whether a command only reports: it succeeds and leaves the files. -/
def OnlyReports {α : Type} (c : Command α) : Prop :=
  ∀ s : Session, ∃ a s', c.run s = (.ok a, s') ∧ s'.files = s.files

/-- A report only reports. -/
theorem onlyReports_report (line : String) : OnlyReports (report line) := fun s =>
  ⟨(), _, run_report line s, rfl⟩

/-- A result only reports nothing. -/
theorem onlyReports_pure {α : Type} (a : α) : OnlyReports (pure a) := fun s =>
  ⟨a, s, run_pure a s, rfl⟩

/-- What only reports makes no difference behind a command. -/
theorem run_of_onlyReports {α β : Type} {c : Command α} {k : α → Command β} {r : Except Failure β}
    (h : (c >>= k).run s = (r, s')) (quiet : ∀ a, OnlyReports (k a)) :
    ∃ r' s₁, c.run s = (r', s₁) ∧ failure? r' = failure? r ∧ s₁.files = s'.files := by
  rw [run_bind] at h
  split at h
  · next a s₁ hc =>
    obtain ⟨b, s₂, hk, hfiles⟩ := quiet a s₁
    rw [hk] at h
    cases h
    exact ⟨.ok a, s₁, hc, rfl, hfiles.symm⟩
  · next f s₁ hc =>
    cases h
    exact ⟨.error f, s', hc, rfl, rfl⟩

/-- A file is written or the run fails. -/
theorem cases_of_run_write {text : String} {r : Except Failure Unit}
    (h : (change (fun e => failure (.unwritten path e)) fun files => files.write path text).run s =
      (r, s')) :
    (∃ next, s.files.write path text = .ok next ∧ r = .ok () ∧ s' = { s with files := next }) ∨
      ∃ e, s.files.write path text = .error e ∧ r = .error (failure (.unwritten path e)) ∧
        s' = s := by
  rw [run_change] at h
  split at h
  · next next written =>
    cases h
    exact .inl ⟨next, written, rfl, rfl⟩
  · next e unwritten =>
    cases h
    exact .inr ⟨e, unwritten, rfl, rfl⟩

/-- Writing generated code stores it. -/
theorem stores_of_writeOutput {r : Except Failure Unit}
    (h : (writeOutput failure path (g.format raw)).run s = (r, s')) :
    ∃ log, Stores g.formatter failure path raw s.files log (failure? r) s'.files := by
  unfold writeOutput Generator.format at h
  cases code : g.formatter raw with
  | ok formatted =>
    have text : g.formatter.textOf raw = formatted := by rw [Formatter.textOf, code]
    rw [code] at h
    rcases cases_of_run_write h with ⟨next, written, rfl, rfl⟩ | ⟨e, unwritten, rfl, rfl⟩
    · exact ⟨_, .formatted code written⟩
    · exact ⟨_, .unwritten (text.symm ▸ unwritten)⟩
  | error e =>
    have text : g.formatter.textOf raw = raw := by rw [Formatter.textOf, code]
    rw [code] at h
    cases e with
    | unavailable command reason =>
      rcases cases_of_run_write h with ⟨next, written, rfl, rfl⟩ | ⟨e, unwritten, rfl, rfl⟩
      · exact ⟨_, .unformatted code written⟩
      · exact ⟨_, .unwritten (text.symm ▸ unwritten)⟩
    | rejected reason =>
      -- The refusal stops the run behind the file, so what is written first decides.
      dsimp only [Except.mapError] at h
      rw [run_bind] at h
      split at h
      · next hw =>
        obtain ⟨next, written, -, rfl⟩ | ⟨e, -, hr, -⟩ := cases_of_run_write hw
        · cases h
          exact ⟨_, .refused code written⟩
        · cases hr
      · next hw =>
        obtain ⟨next, -, hr, -⟩ | ⟨e, unwritten, hr, rfl⟩ := cases_of_run_write hw
        · cases hr
        · cases hr
          cases h
          exact ⟨_, .unwritten (text.symm ▸ unwritten)⟩

/-- A document that is read leaves the session, and so does one that is not. -/
theorem run_readDocument [Diagnosis] (document : Path) (s : Session) :
    (readDocument document).run s =
    match Queries.load s.files document with
    | .ok queries => (.ok queries, s)
    | .error e => (.error (.document document e), s) := by
  unfold readDocument
  rw [run_bind, run_files]
  dsimp only
  cases Queries.load s.files document <;> rfl

/-- A document without code stops the run, and one with code is stored. -/
theorem cases_of_generateDocument [Diagnosis] {r : Except Failure Nat}
    (h : (generateDocument g out verbose document).run s = (r, s')) :
    (∃ f, rawCode g s.files document = .error f ∧ r = .error f ∧ s' = s) ∨
      ∃ raw log, rawCode g s.files document = .ok raw ∧
        Stores g.formatter (.accessors document) (target out document) raw s.files log (failure? r)
          s'.files := by
  unfold generateDocument at h
  rw [run_bind, run_readDocument] at h
  unfold rawCode
  cases loaded : Queries.load s.files document with
  | error e =>
    rw [loaded] at h
    cases h
    exact .inl ⟨_, rfl, rfl, rfl⟩
  | ok queries =>
    rw [loaded] at h
    dsimp only at h ⊢
    unfold Generator.queriesFile at h
    cases resolved : g.imports.resolve queries.list with
    | error e =>
      rw [resolved] at h
      cases h
      exact .inl ⟨_, rfl, rfl, rfl⟩
    | ok imports =>
      rw [resolved] at h
      change ((writeOutput _ _ (g.format _)) >>= _).run s = _ at h
      obtain ⟨r', s₁, hw, hr, hfiles⟩ := run_of_onlyReports h fun _ s => by
        cases verbose <;> exact ⟨_, _, rfl, rfl⟩
      obtain ⟨log, stored⟩ := stores_of_writeOutput hw
      rw [hr, hfiles] at stored
      exact .inr ⟨_, log, rfl, stored⟩

/-- Generating for documents goes as described. -/
theorem proceeds_of_generateDocuments [Diagnosis] {r : Except Failure Nat}
    (h : (generateDocuments g out verbose documents).run s = (r, s')) :
    ∃ log, Proceeds g out s.files documents log (failure? r) s'.files := by
  induction documents generalizing s s' r with
  | nil =>
    cases h
    exact ⟨[], .done⟩
  | cons document rest ih =>
    rw [generateDocuments, run_bind] at h
    split at h
    · next count s₁ hd =>
      rcases cases_of_generateDocument hd with ⟨f, -, hr, -⟩ | ⟨raw, log, code, stored⟩
      · cases hr
      · obtain ⟨r', s₂, hrest, hr, hfiles⟩ := run_of_onlyReports h fun _ =>
          onlyReports_pure _
        obtain ⟨log', others⟩ := ih hrest
        rw [hr, hfiles] at others
        exact ⟨log ++ log', .cons code stored others⟩
    · next f s₁ hd =>
      cases h
      rcases cases_of_generateDocument hd with ⟨f', code, hr, rfl⟩ | ⟨raw, log, code, stored⟩
      · cases hr
        exact ⟨[], .wrong code⟩
      · exact ⟨log, .stopped code stored⟩

/-- Generating a package goes as described. -/
theorem generates_of_generateBy [Diagnosis] {r : Except Failure Unit}
    (h : (generateBy φ settings options verbose).run s = (r, s')) :
    ∃ log, Generates φ settings options s.files log (failure? r) s'.files := by
  unfold generateBy at h
  rw [run_bind, run_findDocuments] at h
  by_cases found : DocumentSearch.run s.files options.paths = []
  · rw [if_pos found] at h
    cases h
    exact ⟨[], .nothing found⟩
  · rw [if_neg found] at h
    dsimp only at h
    rw [run_bind, run_ensureDirectory] at h
    cases directory : s.files.withDirectory (options.outDirectory settings) with
    | error e =>
      rw [directory] at h
      cases h
      exact ⟨[], .noDirectory found directory⟩
    | ok start =>
      rw [directory] at h
      dsimp only at h
      rw [run_bind, run_files] at h
      -- The session after the report has the files of `start`, where the documents begin.
      obtain ⟨s₁, hs, h⟩ := run_of_optional_report h
      rw [run_bind] at h
      split at h
      · next count s₂ hd =>
        obtain ⟨log, documents⟩ := proceeds_of_generateDocuments hd
        rw [hs] at documents
        change ((writeOutput _ _ (Generator.format _ _)) >>= _).run s₂ = _ at h
        obtain ⟨r', s₃, hw, hr, hfiles⟩ := run_of_onlyReports h fun _ =>
          onlyReports_report _
        obtain ⟨log', library⟩ := stores_of_writeOutput hw
        rw [hr, hfiles] at library
        exact ⟨log ++ log', .library found directory documents library⟩
      · next f s₂ hd =>
        obtain ⟨log, documents⟩ := proceeds_of_generateDocuments hd
        rw [hs] at documents
        cases h
        exact ⟨log, .stopped found directory documents⟩

/-! ## What is written, and in which order -/

/-- What is stored is written: the file at the path, unless it cannot be written. -/
theorem Stores.written (h : Stores φ failure path raw files log stop last) :
    files.writeAll log = .ok last ∧ (log.map Prod.fst = [path] ∨ log = [] ∧ stop ≠ none) := by
  cases h with
  | formatted _ written => exact ⟨FileTree.writeAll_singleton written, .inl rfl⟩
  | unformatted _ written => exact ⟨FileTree.writeAll_singleton written, .inl rfl⟩
  | refused _ written => exact ⟨FileTree.writeAll_singleton written, .inl rfl⟩
  | unwritten _ => exact ⟨rfl, .inr ⟨rfl, Option.some_ne_none _⟩⟩

/-- The files of documents are written one after the other. -/
theorem Proceeds.writeAll [Diagnosis] (h : Proceeds g out files documents log stop last) :
    files.writeAll log = .ok last := by
  induction h with
  | done => rfl
  | wrong _ => rfl
  | stopped _ stored => exact stored.written.1
  | cons _ stored _ ih => exact FileTree.writeAll_append stored.written.1 ih

/-- What is written are the targets of the first documents, and of all if nothing stops the run. -/
theorem Proceeds.inOrder [Diagnosis] (h : Proceeds g out files documents log stop last) :
    ∃ written, written <+: documents ∧ log.map Prod.fst = written.map (target out) ∧
      (stop = none → written = documents) := by
  induction h with
  | done => exact ⟨[], List.prefix_rfl, rfl, fun _ => rfl⟩
  | wrong _ => exact ⟨[], List.nil_prefix, rfl, fun h => absurd h (Option.some_ne_none _)⟩
  | @stopped _ _ document rest _ _ _ _ stored =>
    rcases stored.written.2 with paths | ⟨rfl, -⟩
    · refine ⟨[document], ?_, paths, fun h => absurd h (Option.some_ne_none _)⟩
      exact List.cons_prefix_cons.mpr ⟨rfl, List.nil_prefix⟩
    · exact ⟨[], List.nil_prefix, rfl, fun h => absurd h (Option.some_ne_none _)⟩
  | @cons _ _ _ document rest _ _ _ _ _ stored _ ih =>
    obtain ⟨written, hprefix, others, all⟩ := ih
    rcases stored.written.2 with paths | ⟨-, stop⟩
    · refine ⟨document :: written, List.cons_prefix_cons.mpr ⟨rfl, hprefix⟩, ?_, fun h => ?_⟩
      · rw [List.map_append, paths, others, List.map_cons, List.singleton_append]
      · rw [all h]
    · exact absurd rfl stop

/-- All is written one file after the other, as soon as there is a directory for the output. -/
theorem Generates.writeAll [Diagnosis] (h : Generates φ settings options files log stop last) :
    ∃ start, (start = files ∨ files.withDirectory (options.outDirectory settings) = .ok start) ∧
      start.writeAll log = .ok last := by
  cases h with
  | nothing _ => exact ⟨files, .inl rfl, rfl⟩
  | noDirectory _ _ => exact ⟨files, .inl rfl, rfl⟩
  | stopped _ directory documents => exact ⟨_, .inr directory, documents.writeAll⟩
  | library _ directory documents library =>
    exact ⟨_, .inr directory, FileTree.writeAll_append documents.writeAll library.written.1⟩

/-- What is written are the targets of the first documents in order; the library file is written
behind those of all documents. -/
theorem Generates.inOrder [Diagnosis] (h : Generates φ settings options files log stop last) :
    ∃ written, written <+: DocumentSearch.run files options.paths ∧
      (stop ≠ none ∧ log.map Prod.fst = written.map (target (options.outDirectory settings)) ∨
        written = DocumentSearch.run files options.paths ∧
          log.map Prod.fst = written.map (target (options.outDirectory settings)) ++
            [(options.outDirectory settings).join libraryName]) := by
  cases h with
  | nothing _ => exact ⟨[], List.nil_prefix, .inl ⟨Option.some_ne_none _, rfl⟩⟩
  | noDirectory _ _ => exact ⟨[], List.nil_prefix, .inl ⟨Option.some_ne_none _, rfl⟩⟩
  | stopped _ _ documents =>
    obtain ⟨written, hprefix, paths, -⟩ := documents.inOrder
    exact ⟨written, hprefix, .inl ⟨Option.some_ne_none _, paths⟩⟩
  | library _ _ documents library =>
    obtain ⟨written, hprefix, paths, all⟩ := documents.inOrder
    refine ⟨written, hprefix, ?_⟩
    rcases library.written.2 with last | ⟨rfl, stop⟩
    · exact .inr ⟨all rfl, by rw [List.map_append, paths, last]⟩
    · exact .inl ⟨stop, by rw [List.append_nil, paths]⟩

/-- What changes is written, or is a directory made for the output. -/
theorem Generates.frame [Diagnosis] (h : Generates φ settings options files log stop last)
    {location : Location} (changed : last.find? location ≠ files.find? location) :
    (∃ w ∈ log, last.locate w.1 = .ok location) ∨
      last.find? location = some .directory ∧ ∃ directory,
        (options.outDirectory settings).LiesIn directory ∧
          last.locate (FileTree.bare directory) = .ok location := by
  obtain ⟨start, hstart, all⟩ := h.writeAll
  obtain ⟨same, frame⟩ := FileTree.frame_of_writeAll all
  by_cases written : ∃ w ∈ log, start.locate w.1 = .ok location
  · obtain ⟨w, hw, hl⟩ := written
    exact .inl ⟨w, hw, (FileTree.locate_eq_ok_of_sameDirectories same).mp hl⟩
  · have elsewhere := frame location fun w hw hl => written ⟨w, hw, hl⟩
    rw [elsewhere] at changed ⊢
    rcases hstart with rfl | hstart
    · exact absurd rfl changed
    · obtain ⟨made, directory, lies, hl⟩ := FileTree.makesOnly_of_withDirectory hstart _ changed
      exact .inr ⟨made, directory, lies, (FileTree.locate_eq_ok_of_sameDirectories same).mp hl⟩

/-! ## Missing formatters -/

section Missing

variable (missing : φ.IsMissing)

include missing

/-- Code that a missing formatter leaves is written as it is. -/
theorem writeOutput_of_missing (name : String) (imports : List String) (raw : String) :
    writeOutput failure path ((Generator.new name imports φ).format raw) =
      writeOutput failure path ((Generator.new name imports .verbatim).format raw) := by
  obtain ⟨command, reason, h⟩ := missing raw
  show writeOutput failure path ((φ raw).mapError (.unformatted raw)) = _
  rw [h]
  rfl

/-- The file of a document is written as without a formatter. -/
theorem generateDocument_of_missing [Diagnosis] (name : String) (imports : List String) (out : Path)
    (verbose : Bool) (document : Path) :
    generateDocument (.new name imports φ) out verbose document =
      generateDocument (.new name imports .verbatim) out verbose document := by
  have output (queries : Queries) : writeOutput (.accessors document) (target out document)
      ((Generator.new name imports φ).queriesFile (sourceName document) queries) =
    writeOutput (.accessors document) (target out document)
      ((Generator.new name imports .verbatim).queriesFile (sourceName document) queries) := by
    unfold Generator.queriesFile
    show writeOutput _ _ (((ImportTable.ofEntries imports).resolve queries.list).mapError _ >>= _) =
      writeOutput _ _ (((ImportTable.ofEntries imports).resolve queries.list).mapError _ >>= _)
    cases (ImportTable.ofEntries imports).resolve queries.list with
    | error e => rfl
    | ok set => exact writeOutput_of_missing missing name imports _
  unfold generateDocument
  apply congrArg (readDocument document >>= ·)
  funext queries
  dsimp only
  rw [output]

/-- The files of documents are written as without a formatter. -/
theorem generateDocuments_of_missing [Diagnosis] (name : String) (imports : List String)
    (out : Path) (verbose : Bool) (documents : List Path) :
    generateDocuments (.new name imports φ) out verbose documents =
      generateDocuments (.new name imports .verbatim) out verbose documents := by
  induction documents with
  | nil => rfl
  | cons document rest ih =>
    rw [generateDocuments, generateDocuments, generateDocument_of_missing missing, ih]

/-- A missing formatter makes no difference to none. -/
theorem generateBy_of_missing [Diagnosis] (settings : Settings) (options : GenerateOptions)
    (verbose : Bool) :
    generateBy φ settings options verbose = generateBy .verbatim settings options verbose := by
  have library (name : String) (imports : List String) (path : Path) :
      writeOutput .library path (Generator.new name imports φ).libraryFile =
        writeOutput .library path (Generator.new name imports .verbatim).libraryFile :=
    writeOutput_of_missing missing name imports _
  unfold generateBy GenerateOptions.generatorBy
  simp only [generateDocuments_of_missing missing, library]
  rfl

end Missing

/-! ## What a run writes -/

/-- The exit status says whether something stopped the run. -/
theorem status_of_generating [Diagnosis] {programs : String → Option Formatter.Program}
    {config : Option Path} (loaded : (loadSettings config verbose).run s = (.ok settings, s')) :
    ((((Invocation.generating config verbose options).run programs s).1 = .success ↔
        failure? ((generate programs settings options verbose).run s').1 = none) ∧
      ((Invocation.generating config verbose options).run programs s).2.files =
        ((generate programs settings options verbose).run s').2.files) := by
  have h : ((Invocation.generating config verbose options).command programs).run s =
      (generate programs settings options verbose).run s' := by
    show (loadSettings config verbose >>= _).run s = _
    rw [run_bind, loaded]
    rfl
  unfold Invocation.run
  rw [h]
  rcases (generate programs settings options verbose).run s' with ⟨f | u, last⟩
  · exact ⟨⟨fun h => (nomatch h), fun h => (nomatch h)⟩, rfl⟩
  · exact ⟨⟨fun _ => rfl, fun _ => rfl⟩, rfl⟩

/-- What generating a package writes, under settings and with options. -/
structure WritesInOrder [Diagnosis] (settings : Settings) (options : GenerateOptions)
    (verbose : Bool) : Prop where
  /-- The formatter is the one that the settings ask for. -/
  formatter : ∀ programs, generate programs settings options verbose =
    generateBy (.ofSettings programs settings.format) settings options verbose
  /-- The exit status says whether the run was stopped, and the files are those of the run. -/
  status : ∀ programs config s s', (loadSettings config verbose).run s = (.ok settings, s') →
    let result := (generate programs settings options verbose).run s'
    let invocation := (Invocation.generating config verbose options).run programs s
    (invocation.1 = .success ↔ failure? result.1 = none) ∧ invocation.2.files = result.2.files
  /-- Whatever the formatter does, the run goes through the documents as described. -/
  goes : ∀ (φ : Formatter) (s : Session),
    let result := (generateBy φ settings options verbose).run s
    ∃ log, Generates φ settings options s.files log (failure? result.1) result.2.files
  /-- Such a run writes the targets of the first documents, in order; the library file is written
  behind those of all documents. -/
  order : ∀ φ files log stop last, Generates φ settings options files log stop last →
    ∃ written, written <+: DocumentSearch.run files options.paths ∧
      (stop ≠ none ∧ log.map Prod.fst = written.map (target (options.outDirectory settings)) ∨
        written = DocumentSearch.run files options.paths ∧
          log.map Prod.fst = written.map (target (options.outDirectory settings)) ++
            [(options.outDirectory settings).join libraryName])
  /-- The library file is not the target of a document. -/
  apart : ∀ (files : FileTree) document location location',
    files.locate (target (options.outDirectory settings) document) = .ok location →
      files.locate ((options.outDirectory settings).join libraryName) = .ok location' →
        location ≠ location'
  /-- Such a run changes nothing else, but for directories made for the output. -/
  frame : ∀ φ files log stop last, Generates φ settings options files log stop last →
    ∀ location, last.find? location ≠ files.find? location →
      (∃ w ∈ log, last.locate w.1 = .ok location) ∨
        last.find? location = some .directory ∧ ∃ directory,
          (options.outDirectory settings).LiesIn directory ∧
            last.locate (FileTree.bare directory) = .ok location
  /-- A formatter that cannot be run makes no difference to formatting being disabled. -/
  unavailable : ∀ φ : Formatter, φ.IsMissing → ∀ programs,
    generateBy φ settings options verbose =
      generate programs settings.unformatted options verbose
  /-- So it is for a command that names no program that there is. -/
  unavailable_command : ∀ programs, (∀ name arguments,
      Formatter.words settings.format.command = name :: arguments → programs name = none) →
    generate programs settings options verbose =
      generate programs settings.unformatted options verbose

/-- **What a run writes.** -/
theorem generate_writes_in_order [Diagnosis] (settings : Settings) (options : GenerateOptions)
    (verbose : Bool) : WritesInOrder settings options verbose where
  formatter := fun _ => rfl
  status := by
    intro programs config s s' loaded
    exact status_of_generating loaded
  goes := by
    intro φ s
    exact generates_of_generateBy rfl
  order := fun _ _ _ _ _ h => h.inOrder
  apart := fun _ _ _ _ => locate_target_ne_library
  frame := fun _ _ _ _ _ h _ => h.frame
  unavailable := by
    intro φ missing programs
    rw [generateBy_of_missing missing]
    rfl
  unavailable_command := by
    intro programs absent
    show generateBy (.ofSettings programs settings.format) settings options verbose =
      generateBy .verbatim settings options verbose
    unfold Formatter.ofSettings
    split
    · exact generateBy_of_missing (Formatter.isMissing_ofCommand.mpr absent) ..
    · rfl

/-- Behind a document that is fine one is not, so there is a file for the first alone. -/
example :
    let s : Session :=
      { files :=
          { entries :=
              [(["x.yaml"], .file "a:\n  type: exec\n  sql: y\n"),
                (["y.yaml"], .file "a:\n  type: exec\n  sql: y\n  params:\n    p: uuid.UUID\n")]
            workingDirectory := [] } }
    let result := (generate (fun _ => none) {} { paths := ["."] } false).run s
    (failure? result.1).isSome ∧ result.2.files.existsAt "x.sql.go" ∧
      ¬ result.2.files.existsAt "y.sql.go" ∧ ¬ result.2.files.existsAt libraryName := by
  decide +kernel

end Command

end QueryBook
