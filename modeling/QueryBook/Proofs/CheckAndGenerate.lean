import QueryBook.CommandLine.Run
import QueryBook.Proofs.Directories
import QueryBook.Proofs.ImportTables
import QueryBook.Proofs.Outputs

/-!
# Checking and generating

A check gives a verdict on every document it finds, and generating reads and resolves the same
documents. They build their import tables separately, but the table for generating knows at least
the qualifiers of the table for checking. So generating never fails on a document that passed a
check, and documents that are generated without further imports pass a check.
-/

namespace QueryBook

/-! ## Verdicts -/

namespace Verdict

/-- A document passes if it is read, is a query document and resolves. -/
theorem ofDocument_eq_ok [Diagnosis] {imports : ImportTable} {files : FileTree} {document : Path}
    {queries : Queries} : ofDocument imports files document = .ok queries ↔
      (∃ source, files.read document = .ok source ∧ Queries.parse source = .ok queries) ∧
        ∃ set, imports.resolve queries.list = .ok set := by
  have load : Queries.load files document = .ok queries ↔
      ∃ source, files.read document = .ok source ∧ Queries.parse source = .ok queries := by
    unfold Queries.load
    cases files.read document <;> simp
  rw [← load]
  unfold ofDocument
  constructor
  · intro h
    obtain ⟨queries', hl, h⟩ := Reading.bind_eq_ok.mp h
    obtain ⟨set, hs, h⟩ := Reading.bind_eq_ok.mp h
    cases h
    exact ⟨hl, set, hs⟩
  · rintro ⟨hl, set, hs⟩
    exact Reading.bind_eq_ok.mpr ⟨queries, hl, Reading.bind_eq_ok.mpr ⟨set, hs, rfl⟩⟩

/-- The verdict on a document depends only on what is read from its path. -/
theorem ofDocument_congr [Diagnosis] {imports : ImportTable} {files files' : FileTree}
    {document : Path} (h : files.read document = files'.read document) :
    ofDocument imports files document = ofDocument imports files' document := by
  unfold ofDocument Queries.load
  rw [h]

/-- Whether a document is right. -/
def Passes (v : Verdict) : Prop := ∃ queries, v = .ok queries

/-- What is no failure passes. -/
theorem isFailure_eq_false {v : Verdict} : v.isFailure = false ↔ v.Passes := by
  cases v <;> simp [isFailure, Passes, Except.toOption]

theorem Passes.append [Diagnosis] {entries : List String} {files : FileTree} {document : Path}
    (h : (ofDocument (.ofEntries entries) files document).Passes) (further : List String) :
    (ofDocument (.ofEntries (entries ++ further)) files document).Passes := by
  obtain ⟨queries, hv⟩ := h
  obtain ⟨read, resolved⟩ := ofDocument_eq_ok.mp hv
  exact ⟨queries, ofDocument_eq_ok.mpr ⟨read, ImportTable.exists_resolve_of_extends
    (ImportTable.extends_ofEntries_append entries further) resolved⟩⟩

/-- The verdicts on documents, with imports beyond the standard ones. -/
def ofDocuments [Diagnosis] (imports : List String) (files : FileTree) (documents : List Path) :
    List (Path × Verdict) :=
  documents.map fun path => (path, ofDocument (.ofEntries imports) files path)

/-- The report on verdicts. -/
def report (json : Bool) (verdicts : List (Path × Verdict)) : String :=
  if json then (Json.Value.array (verdicts.map fun (p, v) => v.toJson p)).text ++ "\n"
  else String.join (verdicts.map fun (p, v) => v.line p)

/-- The verdicts on documents that are wrong. -/
def failures (verdicts : List (Path × Verdict)) : List (Path × Verdict) :=
  verdicts.filter fun (_, v) => v.isFailure

/-- There is no failure exactly if all documents pass. -/
theorem failures_ofDocuments_eq_nil [Diagnosis] {imports : List String} {files : FileTree}
    {documents : List Path} : failures (ofDocuments imports files documents) = [] ↔
      ∀ d ∈ documents, (ofDocument (.ofEntries imports) files d).Passes := by
  simp [failures, ofDocuments, List.filter_eq_nil_iff, isFailure_eq_false]

end Verdict

namespace Command

variable {settings : Settings} {paths documents : List Path} {json verbose : Bool}
  {s s' : Session}

/-! ## Runs of a check -/

/-- Fails if one of the verdicts is a failure. -/
def conclude (verdicts : List (Path × Verdict)) : Command Unit :=
  let failed := (Verdict.failures verdicts).length
  if 0 < failed then throw (.check failed verdicts.length) else pure ()

/-- A check reports the verdicts on the documents it finds and fails if one of them is a failure. -/
theorem check_eq [Diagnosis] : check settings paths json =
    (do
      let documents ← findDocuments paths
      let files ← files
      let verdicts := Verdict.ofDocuments settings.imports files documents
      print (Verdict.report json verdicts)
      conclude verdicts) := by
  cases json <;> rfl

/-- Documents are found, or the command fails. -/
theorem run_findDocuments : (findDocuments paths).run s =
    (if DocumentSearch.run s.files paths = [] then .error .noDocuments
      else .ok (DocumentSearch.run s.files paths), s) := by
  unfold findDocuments
  rw [run_bind, run_files]
  dsimp only
  split
  · next h => rw [if_pos h, run_throw]
  · next h => rw [if_neg h, run_pure]

/-- A check without documents fails. -/
theorem run_check_of_nil [Diagnosis] (h : DocumentSearch.run s.files paths = []) :
    (check settings paths json).run s = (.error .noDocuments, s) := by
  rw [check_eq, run_bind, run_findDocuments, if_pos h]

/-- A check of documents reports all verdicts and then concludes from them. -/
theorem run_check_of_ne_nil [Diagnosis] (h : DocumentSearch.run s.files paths ≠ []) :
    (check settings paths json).run s =
      let verdicts :=
        Verdict.ofDocuments settings.imports s.files (DocumentSearch.run s.files paths)
      (conclude verdicts).run { s with output := s.output ++ Verdict.report json verdicts } := by
  rw [check_eq, run_bind, run_findDocuments, if_neg h]
  rfl

/-- A check concludes in a session that it leaves. -/
theorem run_conclude (verdicts : List (Path × Verdict)) :
    (conclude verdicts).run s =
      (if 0 < (Verdict.failures verdicts).length then
        .error (.check (Verdict.failures verdicts).length verdicts.length) else .ok (), s) := by
  unfold conclude
  dsimp only
  split
  · rw [run_throw]
  · rw [run_pure]

/-- A check succeeds exactly if there are documents and all of them pass. -/
theorem run_check_eq_ok [Diagnosis] : (∃ s', (check settings paths json).run s = (.ok (), s')) ↔
    DocumentSearch.run s.files paths ≠ [] ∧ ∀ d ∈ DocumentSearch.run s.files paths,
      (Verdict.ofDocument (.ofEntries settings.imports) s.files d).Passes := by
  by_cases h : DocumentSearch.run s.files paths = []
  · rw [run_check_of_nil h]
    simp [h]
  · rw [run_check_of_ne_nil h]
    dsimp only
    rw [run_conclude, ← Verdict.failures_ofDocuments_eq_nil, ← List.length_eq_zero_iff]
    split
    · next hf => simp [h, Nat.ne_of_gt hf]
    · next hf => simp [h, Nat.eq_zero_of_not_pos hf]

/-! ## What comes before documents are read -/

/-- Settings are loaded whether or not it is reported that there is no file with them. Files and
output stay. -/
theorem loadSettings_of_verbose {config : Option Path}
    (h : (loadSettings config verbose).run s = (.ok settings, s')) (verbose' : Bool) :
    ∃ s₁, (loadSettings config verbose').run s = (.ok settings, s₁) ∧
      s₁.files = s.files ∧ s₁.output = s.output := by
  unfold loadSettings at h ⊢
  rw [run_bind, run_files] at h
  rw [run_bind, run_files]
  dsimp only at h ⊢
  cases config with
  | some path =>
    dsimp only at h ⊢
    split at h
    · cases h
      exact ⟨s, rfl, rfl, rfl⟩
    · cases h
  | none =>
    dsimp only at h ⊢
    split at h
    · next hx =>
      rw [if_pos hx]
      split at h
      · cases h
        exact ⟨s, rfl, rfl, rfl⟩
      · cases h
    · next hx =>
      rw [if_neg hx]
      obtain rfl : ({} : Settings) = settings := by
        cases verbose <;> cases h <;> rfl
      cases verbose'
      · exact ⟨s, rfl, rfl, rfl⟩
      · exact ⟨_, rfl, rfl, rfl⟩

end Command

/-- The tree with a directory, which is made unless something is there. -/
def FileTree.withDirectory (t : FileTree) (path : Path) : Except FileError FileTree :=
  if t.existsAt path then .ok t else t.makeDirectories (path.length + 1) path

/-- All that was there is kept. -/
theorem FileTree.keeps_of_withDirectory {t t' : FileTree} {path : Path}
    (h : t.withDirectory path = .ok t') : t.Keeps t' := by
  unfold withDirectory at h
  split at h
  · cases h
    exact .refl t
  · exact keeps_of_makeDirectories h

/-- Nothing is made but the directory and those that it lies in. -/
theorem FileTree.makesOnly_of_withDirectory {t t' : FileTree} {path : Path}
    (h : t.withDirectory path = .ok t') : MakesOnly path t t' := by
  unfold withDirectory at h
  split at h
  · cases h
    exact .refl path t
  · exact makesOnly_of_makeDirectories h

/-- Whether a command stops at what it puts out: a directory cannot be made, a file cannot be
written, or the formatter refuses code. -/
def Failure.IsOutput : Failure → Prop
  | .outDirectory .. => True
  | .accessors _ o | .library o => ∀ e, o ≠ .unresolved e
  | _ => False

namespace Command

variable {settings : Settings} {documents : List Path} {verbose : Bool}
  {s s' : Session} {g : Generator} {out document : Path} {f : Failure}

/-- A directory is ensured, or the run fails and the session stays. -/
theorem run_ensureDirectory (path : Path) (s : Session) : (ensureDirectory path).run s =
    match s.files.withDirectory path with
    | .ok files => (.ok (), { s with files })
    | .error e => (.error (.outDirectory path e), s) := by
  unfold ensureDirectory FileTree.withDirectory
  rw [run_bind, run_files]
  dsimp only
  cases s.files.existsAt path with
  | true => rfl
  | false => exact run_change _ _ s

/-- A directory is ensured exactly if there is a tree with it. -/
theorem run_ensureDirectory_eq_ok {path : Path} {u : Unit} :
    (ensureDirectory path).run s = (.ok u, s') ↔
      ∃ files, s.files.withDirectory path = .ok files ∧ s' = { s with files } := by
  rw [run_ensureDirectory]
  cases s.files.withDirectory path with
  | error e => simp
  | ok files => simp [eq_comm]

/-- If a directory is not ensured, it cannot be made. -/
theorem isOutput_of_ensureDirectory {path : Path} {f : Failure}
    (h : (ensureDirectory path).run s = (.error f, s')) : f.IsOutput := by
  rw [run_ensureDirectory] at h
  split at h
  · cases h
  · cases h
    trivial

/-! ## Runs that fail -/

/-- Code that is not unresolved can only fail to be written, or be refused by the formatter. -/
theorem failure_of_writeOutput {failure : OutputFailure → Failure} {path : Path}
    {code : Except GenerateError String} (hc : ∀ e, code ≠ .error (.unresolved e))
    (h : (writeOutput failure path code).run s = (.error f, s')) :
    ∃ o, f = failure o ∧ ∀ e, o ≠ .unresolved e := by
  unfold writeOutput at h
  dsimp only at h
  split at h
  · obtain ⟨e, rfl⟩ := failure_of_change h
    exact ⟨_, rfl, fun _ => OutputFailure.noConfusion⟩
  · obtain ⟨e, rfl⟩ := failure_of_change h
    exact ⟨_, rfl, fun _ => OutputFailure.noConfusion⟩
  · rcases run_bind_eq_error.mp h with h | ⟨_, _, -, h⟩
    · obtain ⟨e, rfl⟩ := failure_of_change h
      exact ⟨_, rfl, fun _ => OutputFailure.noConfusion⟩
    · cases h
      exact ⟨_, rfl, fun _ => OutputFailure.noConfusion⟩
  · next e => exact absurd rfl (hc e)

/-- The code of queries is unresolved exactly if they do not resolve. -/
theorem queriesFile_ne_unresolved (source : String) {queries : Queries} :
    (∀ e, g.queriesFile source queries ≠ .error (.unresolved e)) ↔
      ∃ set, g.imports.resolve queries.list = .ok set := by
  unfold Generator.queriesFile
  cases g.imports.resolve queries.list with
  | error e =>
    simp only [reduceCtorEq, exists_false, iff_false, not_forall, not_not]
    exact ⟨e, rfl⟩
  | ok set =>
    refine ⟨fun _ => ⟨set, rfl⟩, fun _ e he => ?_⟩
    obtain ⟨_, -, he⟩ := Reading.mapError_eq_error.mp he
    cases he

/-- The code of the library is never unresolved. -/
theorem libraryFile_ne_unresolved (g : Generator) (e : SchemaError) :
    g.libraryFile ≠ .error (.unresolved e) := by
  intro he
  obtain ⟨_, -, he⟩ := Reading.mapError_eq_error.mp he
  cases he

/-- Generating for a document that passes can only fail at its output. -/
theorem isOutput_of_generateDocument [Diagnosis]
    (passes : (Verdict.ofDocument g.imports s.files document).Passes)
    (h : (generateDocument g out verbose document).run s = (.error f, s')) : f.IsOutput := by
  obtain ⟨queries, hv⟩ := passes
  obtain ⟨⟨source, hr, hp⟩, resolved⟩ := Verdict.ofDocument_eq_ok.mp hv
  have loaded : Queries.load s.files document = .ok queries := by
    rw [Queries.load, hr]
    exact hp
  have read : (readDocument document).run s = (.ok queries, s) := by
    unfold readDocument
    rw [run_bind, run_files]
    dsimp only
    rw [loaded]
    rfl
  unfold generateDocument at h
  rw [run_bind, read] at h
  rcases run_bind_eq_error.mp h with h | ⟨_, s₂, -, h⟩
  · obtain ⟨o, rfl, ho⟩ := failure_of_writeOutput ((queriesFile_ne_unresolved _).mpr resolved) h
    exact ho
  · obtain ⟨s₃, -, h⟩ := run_of_optional_report h
    cases h

/-- No document lies where the accessors of one go. -/
def Apart (files : FileTree) (out : Path) (documents : List Path) : Prop :=
  ∀ d ∈ documents, ∀ d' ∈ documents, files.locate d ≠ files.locate (target out d')

/-- Generating for documents that pass can only fail at its output, if no document is overwritten
before it is read. -/
theorem isOutput_of_generateDocuments [Diagnosis]
    (passes : ∀ d ∈ documents, (Verdict.ofDocument g.imports s.files d).Passes)
    (apart : Apart s.files out documents)
    (h : (generateDocuments g out verbose documents).run s = (.error f, s')) : f.IsOutput := by
  induction documents generalizing s with
  | nil => cases h
  | cons first rest ih =>
    rcases run_bind_eq_error.mp h with h | ⟨_, s₁, hfirst, h⟩
    · exact isOutput_of_generateDocument (passes first List.mem_cons_self) h
    · obtain ⟨text, -, hw⟩ := code_of_generateDocument hfirst
      have same := FileTree.sameDirectories_of_write hw
      rcases run_bind_eq_error.mp h with h | ⟨_, s₂, -, h⟩
      · refine ih ?_ ?_ h
        · intro d hd
          obtain ⟨queries, hv⟩ := passes d (List.mem_cons_of_mem _ hd)
          obtain ⟨⟨source, hr, hp⟩, resolved⟩ := Verdict.ofDocument_eq_ok.mp hv
          have elsewhere := apart d (List.mem_cons_of_mem _ hd) first List.mem_cons_self
          have hr' := (FileTree.read_of_write hw elsewhere).mpr hr
          exact ⟨queries, Verdict.ofDocument_eq_ok.mpr ⟨⟨source, hr', hp⟩, resolved⟩⟩
        · -- A document that passes has a location, so the rest are apart as they were.
          intro d hd d' hd' he
          obtain ⟨queries, hv⟩ := passes d (List.mem_cons_of_mem _ hd)
          obtain ⟨⟨source, hr, -⟩, -⟩ := Verdict.ofDocument_eq_ok.mp hv
          obtain ⟨location, hl, -⟩ := FileTree.read_eq_ok.mp hr
          have hl' := (FileTree.locate_eq_ok_of_sameDirectories same).mp hl
          have ht := (FileTree.locate_eq_ok_of_sameDirectories same).mpr (he.symm.trans hl')
          exact apart d (List.mem_cons_of_mem _ hd) d' (List.mem_cons_of_mem _ hd')
            (hl.trans ht.symm)
      · cases h

/-- No document that is found is an output of the run: as soon as there is a directory for the
output, none lies where the accessors of one go. -/
def OutputsApart (files : FileTree) (out : Path) (documents : List Path) : Prop :=
  ∀ start, files.withDirectory out = .ok start → Apart start out documents

variable {programs : String → Option Formatter.Program} {options : GenerateOptions}

/-- If all documents that are found pass, generating can only fail at its output, whatever further
imports it has. -/
theorem isOutput_of_generate [Diagnosis] (found : DocumentSearch.run s.files options.paths ≠ [])
    (passes : ∀ d ∈ DocumentSearch.run s.files options.paths,
      (Verdict.ofDocument (.ofEntries settings.imports) s.files d).Passes)
    (apart : OutputsApart s.files (options.outDirectory settings)
      (DocumentSearch.run s.files options.paths))
    (h : (generate programs settings options verbose).run s = (.error f, s')) : f.IsOutput := by
  unfold generate at h
  rw [run_bind, run_findDocuments, if_neg found] at h
  dsimp only at h
  rcases run_bind_eq_error.mp h with h | ⟨_, s₁, hd, h⟩
  · exact isOutput_of_ensureDirectory h
  · obtain ⟨start, hstart, rfl⟩ := run_ensureDirectory_eq_ok.mp hd
    rw [run_bind, run_files] at h
    obtain ⟨s₂, hs₂, h⟩ := run_of_optional_report h
    have keeps := FileTree.keeps_of_withDirectory hstart
    rcases run_bind_eq_error.mp h with h | ⟨_, s₃, -, h⟩
    · refine isOutput_of_generateDocuments ?_ ?_ h
      · intro d hd
        obtain ⟨queries, hv⟩ := (passes d hd).append options.imports
        obtain ⟨⟨source, hr, hp⟩, resolved⟩ := Verdict.ofDocument_eq_ok.mp hv
        refine ⟨queries, Verdict.ofDocument_eq_ok.mpr ⟨⟨source, ?_, hp⟩, resolved⟩⟩
        rw [hs₂]
        exact keeps.read hr
      · rw [hs₂]
        exact apart start hstart
    · rcases run_bind_eq_error.mp h with h | ⟨_, s₄, -, h⟩
      · obtain ⟨o, rfl, ho⟩ := failure_of_writeOutput (libraryFile_ne_unresolved _) h
        exact ho
      · cases h

/-- A document has code exactly if it passes and its code can be written. -/
theorem passes_of_code? [Diagnosis] {files : FileTree} {text : String}
    (h : code? g files document = some text) :
    (Verdict.ofDocument g.imports files document).Passes := by
  obtain ⟨queries, hl, hw⟩ := Option.bind_eq_some_iff.mp h
  rw [← Reading.eq_ok_iff_toOption] at hl
  have resolved : ∃ set, g.imports.resolve queries.list = .ok set := by
    refine (queriesFile_ne_unresolved (sourceName document)).mp fun e he => ?_
    rw [he] at hw
    cases hw
  refine ⟨queries, Verdict.ofDocument_eq_ok.mpr ⟨?_, resolved⟩⟩
  unfold Queries.load at hl
  split at hl
  · next source hr => exact ⟨source, hr, hl⟩
  · cases hl

/-- If generating succeeds, all documents that are found and can be read pass with its imports. -/
theorem passes_of_generate [Diagnosis] {u : Unit}
    (apart : OutputsApart s.files (options.outDirectory settings)
      (DocumentSearch.run s.files options.paths))
    (h : (generate programs settings options verbose).run s = (.ok u, s')) :
    DocumentSearch.run s.files options.paths ≠ [] ∧
      ∀ d ∈ DocumentSearch.run s.files options.paths, ∀ source, s.files.read d = .ok source →
        (Verdict.ofDocument (.ofEntries (options.allImports settings)) s.files d).Passes := by
  constructor
  · intro found
    unfold generate at h
    rw [run_bind, run_findDocuments, if_pos found] at h
    cases h
  · intro d hd source hr
    obtain ⟨start, made, last, library, directory, documents, all, -⟩ := generatesAll_of_generate h
    obtain ⟨files, hstart, rfl⟩ := run_ensureDirectory_eq_ok.mp directory
    rw [← documents] at hd apart
    obtain ⟨m, hm, rfl⟩ := List.mem_map.mp hd
    have code := all.code_at_start m hm fun m' hm' =>
      apart files hstart _ (List.mem_map_of_mem hm) _ (List.mem_map_of_mem hm')
    obtain ⟨queries, hv⟩ := passes_of_code? code
    obtain ⟨⟨source', hr', hp⟩, resolved⟩ := Verdict.ofDocument_eq_ok.mp hv
    -- The source is still the one that was there before the directory was made.
    have kept := (FileTree.keeps_of_withDirectory hstart).read hr
    rw [kept, Except.ok.injEq] at hr'
    subst hr'
    exact ⟨queries, Verdict.ofDocument_eq_ok.mpr ⟨⟨source, hr, hp⟩, resolved⟩⟩

end Command

/-! ## Invocations -/

namespace Invocation

/-- The invocation that checks documents. -/
def checking (config : Option Path) (verbose : Bool) (paths : List Path) (json : Bool) :
    Invocation :=
  { settings := config, verbose, request := .check paths json }

/-- The invocation that generates a package. -/
def generating (config : Option Path) (verbose : Bool) (options : GenerateOptions) : Invocation :=
  { settings := config, verbose, request := .generate options }

variable {programs : String → Option Formatter.Program} {config : Option Path} {verbose : Bool}
  {s s' : Session} {settings : Settings}

/-- The status is success exactly if the command succeeds. -/
theorem run_eq_success [Diagnosis] {i : Invocation} : (i.run programs s).1 = .success ↔
    ∃ s', (i.command programs).run s = (.ok (), s') := by
  unfold run
  split
  · next h => simp [h]
  · next h => simp [h]

/-- The output is that of the command. -/
theorem output_run [Diagnosis] (i : Invocation) :
    (i.run programs s).2.output = ((i.command programs).run s).2.output := by
  unfold run
  split
  · next h => rw [h]
  · next h => rw [h]

/-- A check is carried out with the settings, whether or not it is verbose. -/
theorem exists_run_checking [Diagnosis]
    (loaded : (Command.loadSettings config verbose).run s = (.ok settings, s'))
    (programs : String → Option Formatter.Program) (v : Bool) (paths : List Path) (json : Bool) :
    ∃ s₁, s₁.files = s.files ∧ s₁.output = s.output ∧
      ((checking config v paths json).command programs).run s =
        (Command.check settings paths json).run s₁ := by
  obtain ⟨s₁, h, files, output⟩ := Command.loadSettings_of_verbose loaded v
  refine ⟨s₁, files, output, ?_⟩
  unfold command checking
  dsimp only
  rw [Command.run_bind, h]

/-- A package is generated with the settings, whether or not this is verbose. -/
theorem exists_run_generating [Diagnosis]
    (loaded : (Command.loadSettings config verbose).run s = (.ok settings, s'))
    (programs : String → Option Formatter.Program) (v : Bool) (options : GenerateOptions) :
    ∃ s₁, s₁.files = s.files ∧
      ((generating config v options).command programs).run s =
        (Command.generate programs settings options v).run s₁ := by
  obtain ⟨s₁, h, files, -⟩ := Command.loadSettings_of_verbose loaded v
  refine ⟨s₁, files, ?_⟩
  unfold command generating
  dsimp only
  rw [Command.run_bind, h]

/-- What a check and generating have to do with each other, for the documents that paths stand for
in a session and under settings. -/
structure Agreement [Diagnosis] (programs : String → Option Formatter.Program)
    (config : Option Path) (settings : Settings) (s : Session) (paths : List Path) : Prop where
  /-- A check reports a verdict on every document that it finds. -/
  reported : ∀ verbose json, DocumentSearch.run s.files paths ≠ [] →
    ((checking config verbose paths json).run programs s).2.output =
      s.output ++ Verdict.report json
        (Verdict.ofDocuments settings.imports s.files (DocumentSearch.run s.files paths))
  /-- The verdict on a document is the same among any other documents, in any files in which it
  reads the same. -/
  independent : ∀ (files : FileTree) (documents : List Path) (d : Path) (v v' : Verdict),
    (d, v) ∈ Verdict.ofDocuments settings.imports s.files (DocumentSearch.run s.files paths) →
      (d, v') ∈ Verdict.ofDocuments settings.imports files documents →
        s.files.read d = files.read d → v = v'
  /-- A check succeeds exactly if there is a document and every document is read, is accepted and
  resolves. -/
  check_succeeds : ∀ verbose json,
    ((checking config verbose paths json).run programs s).1 = .success ↔
      DocumentSearch.run s.files paths ≠ [] ∧ ∀ d ∈ DocumentSearch.run s.files paths,
        ∃ source queries imports, s.files.read d = .ok source ∧
          Queries.parse source = .ok queries ∧
            (ImportTable.ofEntries settings.imports).resolve queries.list = .ok imports
  /-- Generating after a check that succeeds, with any further imports, stops only at its output. -/
  generate_of_check : ∀ verbose json verbose' options, options.paths = paths →
    Command.OutputsApart s.files (options.outDirectory settings)
      (DocumentSearch.run s.files paths) →
    ((checking config verbose paths json).run programs s).1 = .success →
    ∀ f s', ((generating config verbose' options).command programs).run s = (.error f, s') →
      f.IsOutput
  /-- A check succeeds if generating without further imports does. -/
  check_of_generate : ∀ verbose json verbose' options, options.paths = paths →
    options.imports = [] →
    Command.OutputsApart s.files (options.outDirectory settings)
      (DocumentSearch.run s.files paths) →
    (∀ d ∈ DocumentSearch.run s.files paths, ∃ source, s.files.read d = .ok source) →
    ((generating config verbose' options).run programs s).1 = .success →
      ((checking config verbose paths json).run programs s).1 = .success

/-- The verdicts of a check are on the documents one by one. -/
theorem verdict_congr [Diagnosis] {imports : List String} {files files' : FileTree}
    {documents documents' : List Path} {d : Path} {v v' : Verdict}
    (h : (d, v) ∈ Verdict.ofDocuments imports files documents)
    (h' : (d, v') ∈ Verdict.ofDocuments imports files' documents')
    (hr : files.read d = files'.read d) : v = v' := by
  obtain ⟨_, -, he⟩ := List.mem_map.mp h
  obtain ⟨_, -, he'⟩ := List.mem_map.mp h'
  cases he
  cases he'
  exact Verdict.ofDocument_congr hr

/-- A check succeeds exactly if there are documents and all of them pass. -/
theorem run_checking_eq_success [Diagnosis]
    (loaded : (Command.loadSettings config verbose).run s = (.ok settings, s')) {v json : Bool}
    {paths : List Path} : ((checking config v paths json).run programs s).1 = .success ↔
      DocumentSearch.run s.files paths ≠ [] ∧ ∀ d ∈ DocumentSearch.run s.files paths,
        (Verdict.ofDocument (.ofEntries settings.imports) s.files d).Passes := by
  obtain ⟨s₁, files, -, h⟩ := exists_run_checking loaded programs v paths json
  rw [run_eq_success, h, Command.run_check_eq_ok, files]

/-- **Agreement.** If the settings are loaded, a check and generating agree on all documents. -/
theorem check_agrees_with_generate [Diagnosis]
    (loaded : (Command.loadSettings config verbose).run s = (.ok settings, s'))
    (programs : String → Option Formatter.Program) (paths : List Path) :
    Agreement programs config settings s paths where
  reported := by
    intro v json found
    obtain ⟨s₁, files, output, h⟩ := exists_run_checking loaded programs v paths json
    rw [← files] at found
    rw [Command.run_check_of_ne_nil found] at h
    dsimp only at h
    rw [output_run, h, Command.run_conclude, files, output]
  independent := by
    intro files documents d v v' h h' hr
    exact verdict_congr h h' hr
  check_succeeds := by
    intro v json
    rw [run_checking_eq_success loaded]
    refine and_congr_right fun _ => forall₂_congr fun d _ => ?_
    simp only [Verdict.Passes, Verdict.ofDocument_eq_ok]
    constructor
    · rintro ⟨queries, ⟨source, hr, hp⟩, imports, hi⟩
      exact ⟨source, queries, imports, hr, hp, hi⟩
    · rintro ⟨source, queries, imports, hr, hp, hi⟩
      exact ⟨queries, ⟨source, hr, hp⟩, imports, hi⟩
  generate_of_check := by
    rintro v json v' options rfl apart hcheck f s₂ hf
    obtain ⟨found, passes⟩ := (run_checking_eq_success loaded).mp hcheck
    obtain ⟨s₁, files, h⟩ := exists_run_generating loaded programs v' options
    rw [h] at hf
    rw [← files] at found passes apart
    exact Command.isOutput_of_generate found passes apart hf
  check_of_generate := by
    rintro v json v' options rfl himports apart readable hgenerate
    obtain ⟨s₁, files, h⟩ := exists_run_generating loaded programs v' options
    obtain ⟨s₂, hg⟩ := run_eq_success.mp hgenerate
    rw [h] at hg
    rw [← files] at apart readable
    obtain ⟨found, passes⟩ := Command.passes_of_generate apart hg
    -- without imports of its own the run resolves with those of the settings, as a check does
    rw [GenerateOptions.allImports, himports, List.append_nil] at passes
    refine (run_checking_eq_success loaded).mpr ⟨by rwa [← files], fun d hd => ?_⟩
    rw [← files] at hd ⊢
    obtain ⟨source, hr⟩ := readable d hd
    exact passes d hd source hr

/-- A session on a document with a qualified type. -/
def onQualifiedDocument : Session where
  files :=
    { entries := [(["x.yaml"], .file "a:\n  type: exec\n  sql: y\n  params:\n    p: time.Time\n")]
      workingDirectory := [] }

/-- There is a directory for the output from the start, and the document does not lie where its
accessors go. -/
theorem outputsApart_onQualifiedDocument :
    Command.OutputsApart onQualifiedDocument.files "." ["./x.yaml"] := by
  intro start hstart
  obtain rfl : onQualifiedDocument.files = start := by
    rw [FileTree.withDirectory, if_pos (by decide +kernel)] at hstart
    exact Except.ok.inj hstart
  unfold Command.Apart
  decide +kernel

/-- A document with a qualified type passes a check. Generating with another path for the qualifier
and a formatter that refuses all code fails, but not because of the document. Generating without a
formatter succeeds, and so does a check. -/
theorem check_agrees_with_generate_on_qualified_document :
    (Command.loadSettings none false).run onQualifiedDocument = (.ok {}, onQualifiedDocument) ∧
      (∃ f s', ((generating none false
          { paths := ["."], imports := ["time:example.com/clock"] }).command
            fun _ => some Formatter.refuseProgram).run onQualifiedDocument = (.error f, s') ∧
        f.IsOutput) ∧
      ((generating none false { paths := ["."] }).run (fun _ => none) onQualifiedDocument).1 =
        .success ∧
      ((checking none false ["."] true).run (fun _ => none) onQualifiedDocument).1 = .success := by
  have loaded : (Command.loadSettings none false).run onQualifiedDocument =
      (.ok {}, onQualifiedDocument) := by
    decide +kernel
  have found : DocumentSearch.run onQualifiedDocument.files ["."] = ["./x.yaml"] := by
    decide +kernel
  refine ⟨loaded, ?_, ?_⟩
  · have agreement :=
      check_agrees_with_generate loaded (fun _ => some Formatter.refuseProgram) ["."]
    obtain ⟨f, hf⟩ : ∃ f, (((generating none false
        { paths := ["."], imports := ["time:example.com/clock"] }).command
          fun _ => some Formatter.refuseProgram).run onQualifiedDocument).1 = .error f :=
      ⟨.accessors "./x.yaml" (.unformatted "./x.sql.go" ""), by decide +kernel⟩
    refine ⟨f, _, Prod.ext hf rfl, agreement.generate_of_check false true false _ rfl ?_
      (by decide +kernel) f _ (Prod.ext hf rfl)⟩
    rw [found]
    exact outputsApart_onQualifiedDocument
  · have agreement := check_agrees_with_generate loaded (fun _ => none) ["."]
    have generated : ((generating none false { paths := ["."] }).run (fun _ => none)
        onQualifiedDocument).1 = .success := by
      decide +kernel
    refine ⟨generated, agreement.check_of_generate false true false _ rfl rfl ?_ ?_ generated⟩
    · rw [found]
      exact outputsApart_onQualifiedDocument
    · rw [found]
      intro d hd
      rw [List.mem_singleton.mp hd]
      exact ⟨_, rfl⟩

end Invocation

end QueryBook
