import QueryBook.Proofs.DocumentSearch

/-!
# The order of arguments

Documents are found in the order of paths, so the order of arguments can only decide in which
spelling a document is found. Where all spellings of a document that are found end in its name, that
makes no difference to the files: the run goes through the same documents one after the other, reads
the same text from them and writes it to the same place.
-/

namespace QueryBook

namespace Command

/-! ## Commands that agree -/

section agree

variable {α β : Type}

/-- Whether two commands do the same to the files and succeed alike, whatever else they report. -/
def Agree (c c' : Command α) : Prop :=
  ∀ s s' : Session, s.files = s'.files →
    (c.run s).1.toOption = (c'.run s').1.toOption ∧ (c.run s).2.files = (c'.run s').2.files

/-- The files are the same as long as they agree. -/
theorem agree_files : Agree files files := fun s s' h => by
  rw [run_files, run_files]
  exact ⟨congrArg some h, h⟩

/-- A value agrees with itself. -/
theorem agree_pure (a : α) : Agree (pure a) (pure a) := fun _ _ h => ⟨rfl, h⟩

/-- All failures agree. -/
theorem agree_throw (f f' : Failure) : Agree (throw f : Command α) (throw f') :=
  fun _ _ h => ⟨rfl, h⟩

/-- All reports agree. -/
theorem agree_report (line line' : String) : Agree (report line) (report line') :=
  fun _ _ h => ⟨rfl, h⟩

/-- A change of the files agrees with itself, however it fails. -/
theorem agree_change (failure failure' : FileError → Failure)
    (step : FileTree → Except FileError FileTree) :
    Agree (change failure step) (change failure' step) := by
  intro s s' h
  rw [run_change, run_change, h]
  cases step s'.files with
  | ok files => exact ⟨rfl, rfl⟩
  | error e => exact ⟨rfl, h⟩

/-- Sequences of commands that agree do so themselves. -/
theorem agree_bind {c c' : Command α} {k k' : α → Command β} (h : Agree c c')
    (hk : ∀ a, Agree (k a) (k' a)) : Agree (c >>= k) (c' >>= k') := by
  intro s s' hs
  obtain ⟨hresult, hfiles⟩ := h s s' hs
  rw [run_bind, run_bind]
  rcases hc : c.run s with ⟨e | a, t⟩ <;> rcases hc' : c'.run s' with ⟨e' | a', t'⟩ <;>
    rw [hc, hc'] at hresult hfiles
  · exact ⟨rfl, hfiles⟩
  · cases hresult
  · cases hresult
  · cases hresult
    exact hk a t t' hfiles

/-- A report on request agrees with any other. -/
theorem agree_optional_report (verbose : Bool) (line line' : String) {k k' : Command β}
    (hk : Agree k k') :
    Agree (if verbose then report line >>= fun _ => k else k)
      (if verbose then report line' >>= fun _ => k' else k') := by
  cases verbose with
  | false => exact hk
  | true => exact agree_bind (agree_report line line') fun _ => hk

end agree

/-! ## Documents in different spellings -/

/-- Whether two paths are one document as far as a run is concerned: they are spelled alike, or are
spellings of one path that end in its name. -/
def OneDocument (p q : Path) : Prop := p = q ∨ p.same q ∧ p.EndsInName ∧ q.EndsInName

section documents

variable {g : Generator} {out p q : Path} {verbose : Bool}

/-- A document has one name in all its spellings. -/
theorem OneDocument.sourceName_eq (h : OneDocument p q) : sourceName p = sourceName q := by
  rcases h with rfl | ⟨hsame, ⟨name, hname, -⟩, -⟩
  · rfl
  · rw [sourceName, sourceName, ← Path.fileName?_eq_of_same hsame, hname]
    rfl

/-- Its file of accessors is one in all its spellings. -/
theorem OneDocument.target_eq (h : OneDocument p q) : target out p = target out q := by
  have hstem : p.fileStem? = q.fileStem? := by
    rcases h with rfl | ⟨hsame, -, -⟩
    · rfl
    · rw [Path.fileStem?, Path.fileStem?, Path.fileName?_eq_of_same hsame]
  rw [target, target, hstem, h.sourceName_eq]

/-- Its queries are the same in all its spellings. -/
theorem OneDocument.load_eq [Diagnosis] (h : OneDocument p q) (files : FileTree) :
    (Queries.load files p).toOption = (Queries.load files q).toOption := by
  rcases h with rfl | ⟨hsame, hp, hq⟩
  · rfl
  · have hread : ∀ text, files.read p = .ok text ↔ files.read q = .ok text :=
      fun text => FileTree.read_eq_ok_of_same hsame hp hq
    unfold Queries.load
    cases hrp : files.read p with
    | ok text => rw [(hread text).mp hrp]
    | error e =>
      cases hrq : files.read q with
      | ok text =>
        rw [(hread text).mpr hrq] at hrp
        cases hrp
      | error e' => rfl

/-- Reading a document in one spelling agrees with reading it in another. -/
theorem agree_readDocument [Diagnosis] (h : OneDocument p q) :
    Agree (readDocument p) (readDocument q) := by
  unfold readDocument
  refine agree_bind agree_files fun files => ?_
  have hload := h.load_eq files
  cases hp : Queries.load files p <;> cases hq : Queries.load files q <;> rw [hp, hq] at hload
  · exact agree_throw _ _
  · cases hload
  · cases hload
  · cases hload
    exact agree_pure _

/-- Writing code agrees with itself, however it fails. -/
theorem agree_writeOutput (failure failure' : OutputFailure → Failure) (path : Path)
    (code : Except GenerateError String) :
    Agree (writeOutput failure path code) (writeOutput failure' path code) := by
  cases code with
  | ok text => exact agree_change _ _ _
  | error e =>
    cases e with
    | unresolved e => exact agree_throw _ _
    | unformatted raw e =>
      cases e with
      | unavailable command reason => exact agree_change _ _ _
      | rejected reason => exact agree_bind (agree_change _ _ _) fun _ => agree_throw _ _

/-- Generating for a document in one spelling agrees with generating for it in another. -/
theorem agree_generateDocument [Diagnosis] (h : OneDocument p q) :
    Agree (generateDocument g out verbose p) (generateDocument g out verbose q) := by
  refine agree_bind (agree_readDocument h) fun queries => ?_
  rw [h.target_eq, h.sourceName_eq]
  exact agree_bind (agree_writeOutput _ _ _ _) fun _ =>
    agree_optional_report verbose _ _ (agree_pure _)

/-- So it is for documents one after the other. -/
theorem agree_generateDocuments [Diagnosis] {documents documents' : List Path}
    (h : List.Forall₂ OneDocument documents documents') :
    Agree (generateDocuments g out verbose documents) (generateDocuments g out verbose documents') := by
  induction h with
  | nil => exact agree_pure _
  | cons hdocument _ ih =>
    exact agree_bind (agree_generateDocument hdocument) fun _ =>
      agree_bind ih fun _ => agree_pure _

end documents

/-! ## Arguments in any order -/

/-- Whether the documents that arguments stand for are each found in one spelling, or in spellings
that all end in its name. -/
def NamesDocuments (files : FileTree) (paths : List Path) : Prop :=
  ∀ p ∈ paths, ∀ p' ∈ paths, ∀ q q', DocumentSearch.StandsFor files p q →
    DocumentSearch.StandsFor files p' q' → q.same q' → OneDocument q q'

open DocumentSearch

variable {files : FileTree} {paths paths' : List Path}

/-- The same arguments, in another order or more often, give the same documents. -/
theorem forall₂_oneDocument_run (h : NamesDocuments files paths)
    (hpaths : ∀ p, p ∈ paths ↔ p ∈ paths') :
    List.Forall₂ OneDocument (DocumentSearch.run files paths) (DocumentSearch.run files paths') := by
  have hsame : (DocumentSearch.run files paths).map Path.components =
      (DocumentSearch.run files paths').map Path.components :=
    components_run_eq files (fun p hp => ⟨p, (hpaths p).mp hp, by simp⟩)
      fun p hp => ⟨p, (hpaths p).mpr hp, by simp⟩
  have hcomponents : List.Forall₂ (fun q q' => q.components = q'.components)
      (DocumentSearch.run files paths) (DocumentSearch.run files paths') := by
    rw [← List.forall₂_map_right_iff, ← List.forall₂_map_left_iff, List.forall₂_eq_eq_eq]
    exact hsame
  obtain ⟨hlength, hzip⟩ := List.forall₂_iff_zip.mp hcomponents
  refine List.forall₂_iff_zip.mpr ⟨hlength, fun {q q'} hmem => ?_⟩
  obtain ⟨hq, hq'⟩ := List.of_mem_zip hmem
  obtain ⟨p, hp, hstands⟩ := (isExact_run files paths).sound q hq
  obtain ⟨p', hp', hstands'⟩ := (isExact_run files paths').sound q' hq'
  exact h p hp p' ((hpaths p').mpr hp') q q' hstands hstands' (Path.same_iff.mpr (hzip hmem))

/-- Making a directory agrees with itself. -/
theorem agree_ensureDirectory (path : Path) : Agree (ensureDirectory path) (ensureDirectory path) := by
  refine agree_bind agree_files fun files => ?_
  cases files.existsAt path with
  | true => exact agree_pure _
  | false => exact agree_change _ _ _

/-- Generating for the same arguments in another order leaves the same files. -/
theorem generate_of_arguments [Diagnosis] (programs : String → Option Formatter.Program)
    (settings : Settings) (options : GenerateOptions) (verbose : Bool) {s : Session}
    (h : NamesDocuments s.files paths) (hpaths : ∀ p, p ∈ paths ↔ p ∈ paths') :
    ((generate programs settings { options with paths } verbose).run s).1.toOption =
        ((generate programs settings { options with paths := paths' } verbose).run s).1.toOption ∧
      ((generate programs settings { options with paths } verbose).run s).2.files =
        ((generate programs settings { options with paths := paths' } verbose).run s).2.files := by
  have hdocuments := forall₂_oneDocument_run h hpaths
  unfold generate
  rw [run_bind, run_bind, run_findDocuments, run_findDocuments]
  by_cases hnil : DocumentSearch.run s.files paths = []
  · rw [hnil, List.forall₂_nil_left_iff] at hdocuments
    rw [if_pos hnil, if_pos hdocuments]
    exact ⟨rfl, rfl⟩
  · have hnil' : DocumentSearch.run s.files paths' ≠ [] := by
      intro hnil'
      rw [hnil', List.forall₂_nil_right_iff] at hdocuments
      exact hnil hdocuments
    rw [if_neg hnil, if_neg hnil']
    refine agree_bind (agree_ensureDirectory _) (fun _ => ?_) s s rfl
    refine agree_bind agree_files fun files => ?_
    refine agree_optional_report verbose _ _ ?_
    refine agree_bind (agree_generateDocuments hdocuments) fun count => ?_
    exact agree_bind (agree_writeOutput _ _ _ _) fun _ => agree_report _ _

/-- **Searching for documents.** The documents that arguments stand for are found, each once and in
ascending order, and it is a failure if there are none. The spelling of the arguments, their order
and how often they are given make no difference to which paths are found; and if no document is
found in several spellings of which one does not end in its name, their order and how often they are
given make no difference to the files that are generated. -/
theorem documents_of_arguments [Diagnosis] (paths : List Path) :
    (∀ s : Session,
      ((∃ p ∈ paths, ∃ q, StandsFor s.files p q) →
        ∃ found, (findDocuments paths).run s = (.ok found, s) ∧ IsExact s.files paths found) ∧
      ((∀ p ∈ paths, ∀ q, ¬ StandsFor s.files p q) →
        (findDocuments paths).run s = (.error .noDocuments, s))) ∧
    (∀ (s : Session) (paths' : List Path), (∀ p ∈ paths, ∃ p' ∈ paths', p.same p') →
      (∀ p' ∈ paths', ∃ p ∈ paths, p'.same p) →
        ((findDocuments paths).run s).1.map (·.map Path.components) =
          ((findDocuments paths').run s).1.map (·.map Path.components)) ∧
    (∀ (programs : String → Option Formatter.Program) (settings : Settings)
      (options : GenerateOptions) (verbose : Bool) (s : Session) (paths' : List Path),
      NamesDocuments s.files paths → (∀ p, p ∈ paths ↔ p ∈ paths') →
        ((generate programs settings { options with paths } verbose).run s).1.toOption =
          ((generate programs settings { options with paths := paths' } verbose).run s).1.toOption ∧
        ((generate programs settings { options with paths } verbose).run s).2.files =
          ((generate programs settings { options with paths := paths' } verbose).run s).2.files) := by
  refine ⟨fun s => ⟨?_, ?_⟩, ?_, ?_⟩
  · rintro ⟨p, hp, q, hstands⟩
    have hne : DocumentSearch.run s.files paths ≠ [] := fun hnil =>
      run_eq_nil_iff.mp hnil p hp q hstands
    exact ⟨_, by rw [run_findDocuments, if_neg hne], isExact_run s.files paths⟩
  · intro hnone
    rw [run_findDocuments, if_pos (run_eq_nil_iff.mpr hnone)]
  · intro s paths' h h'
    have hsame := components_run_eq s.files h h'
    rw [run_findDocuments, run_findDocuments]
    by_cases hnil : DocumentSearch.run s.files paths = []
    · rw [hnil, List.map_nil, eq_comm, List.map_eq_nil_iff] at hsame
      rw [if_pos hnil, if_pos hsame]
    · have hnil' : DocumentSearch.run s.files paths' ≠ [] := by
        intro hnil'
        rw [hnil', List.map_nil, List.map_eq_nil_iff] at hsame
        exact hnil hsame
      rw [if_neg hnil, if_neg hnil']
      exact congrArg Except.ok hsame
  · intro programs settings options verbose s paths' h hpaths
    exact generate_of_arguments programs settings options verbose h hpaths

/-- Two documents side by side. -/
def twoDocuments : Session where
  files :=
    { entries :=
        [(["a.yaml"], .file "a:\n  type: exec\n  sql: x\n"),
          (["b.yml"], .file "b:\n  type: exec\n  sql: y\n")]
      workingDirectory := [] }

/-- Two documents give the same files in any order. -/
theorem generate_of_two_documents : NamesDocuments twoDocuments.files ["a.yaml", "b.yml"] ∧
    ((generate (fun _ => none) {} { paths := ["a.yaml", "b.yml"] } false).run
        twoDocuments).2.files =
      ((generate (fun _ => none) {} { paths := ["b.yml", "a.yaml", "b.yml"] } false).run
        twoDocuments).2.files := by
  have hitself : ∀ p ∈ ["a.yaml", "b.yml"], ∀ q, StandsFor twoDocuments.files p q → q = p := by
    intro p hp q hq
    cases hq with
    | document => rfl
    | inside hlocate hdirectory =>
      have hfile : ∀ p ∈ ["a.yaml", "b.yml"], twoDocuments.files.isDirectory p = false := by
        decide
      have hisdirectory := FileTree.isDirectory_iff.mpr ⟨_, hlocate, hdirectory⟩
      rw [hfile p hp] at hisdirectory
      cases hisdirectory
  have hnames : NamesDocuments twoDocuments.files ["a.yaml", "b.yml"] := by
    intro p hp p' hp' q q' hq hq' hsame
    rw [hitself p hp q hq, hitself p' hp' q' hq'] at hsame ⊢
    have hspelled : ∀ p ∈ ["a.yaml", "b.yml"], ∀ p' ∈ ["a.yaml", "b.yml"],
        Path.same p p' → p = p' := by decide
    exact .inl (hspelled p hp p' hp' hsame)
  refine ⟨hnames, ((documents_of_arguments ["a.yaml", "b.yml"]).2.2 (fun _ => none) {}
    { paths := [] } false twoDocuments ["b.yml", "a.yaml", "b.yml"] hnames ?_).2⟩
  intro p
  simp only [List.mem_cons, List.not_mem_nil, or_false]
  exact ⟨fun h => h.elim (fun h => .inr (.inl h)) .inl, fun h => h.elim .inr fun h => h⟩

/-- A directory with a document. -/
def oneDocument : Session where
  files :=
    { entries :=
        [(["d"], .directory), (["d", "x.yaml"], .file "a:\n  type: exec\n  sql: y\n")]
      workingDirectory := [] }

/-- A document is read or not by its first argument, if it is given with a slash at its end besides
the directory it lies in. -/
theorem generate_of_document_as_directory :
    (∀ p ∈ ["d", "d/x.yaml/"], ∀ q ∈ ["d", "d/x.yaml/"], Path.same p q → p = q) ∧
    ["d", "d/x.yaml/"].Perm ["d/x.yaml/", "d"] ∧
    ((generate (fun _ => none) {} { paths := ["d", "d/x.yaml/"] } false).run
      oneDocument).2.files.existsAt "x.sql.go" ∧
    ¬ ((generate (fun _ => none) {} { paths := ["d/x.yaml/", "d"] } false).run
      oneDocument).2.files.existsAt "x.sql.go" := by
  refine ⟨by decide, .swap _ _ _, ?_, ?_⟩ <;> decide +kernel

end Command

end QueryBook
