import QueryBook.Proofs.CommandRun
import QueryBook.Proofs.Location

/-!
# What becomes of generated files

A successful run writes a file for every document it found, in order, and the library file last. A
file is kept until one is written to the same location, which happens exactly if two documents have
the same stem. So every document keeps its code exactly if documents with the same stem have the
same code.
-/

namespace QueryBook

namespace Command

/-! ## Generated code -/

/-- What is written for generated code, without a failure: also what a missing formatter leaves
unformatted. -/
def written? : Except GenerateError String → Option String
  | .ok text => some text
  | .error (.unformatted raw (.unavailable ..)) => some raw
  | .error _ => none

/-- The code of a document, as it is in a file tree. -/
def code? [Diagnosis] (g : Generator) (files : FileTree) (document : Path) : Option String := do
  let queries ← (Queries.load files document).toOption
  written? (g.queriesFile (sourceName document) queries)

/-- The code of documents is written in order, each read from the files that those before it
leave. -/
inductive GeneratesAll [Diagnosis] (g : Generator) (out : Path) :
    FileTree → List (Path × String) → FileTree → Prop
  | nil {files : FileTree} : GeneratesAll g out files [] files
  | cons {files next last : FileTree} {document : Path} {text : String}
    {rest : List (Path × String)} (code : code? g files document = some text)
    (written : files.write (target out document) text = .ok next)
    (others : GeneratesAll g out next rest last) :
    GeneratesAll g out files ((document, text) :: rest) last

/-! ## Runs that succeed -/

variable {g : Generator} {out document : Path} {documents : List Path} {verbose : Bool}
  {s s' : Session}

/-- A failure is not a success. -/
theorem ne_ok_of_throw {α : Type} {c : Command Unit} {f : Failure} {a : α} :
    (c >>= fun _ => (throw f : Command α)).run s ≠ (.ok a, s') := by
  intro h
  obtain ⟨_, _, -, h⟩ := run_bind_eq_ok.mp h
  cases h

/-- Generated code is written, or the run fails. -/
theorem files_of_writeOutput {failure : OutputFailure → Failure} {path : Path}
    {code : Except GenerateError String} {u : Unit}
    (h : (writeOutput failure path code).run s = (.ok u, s')) :
    ∃ text, written? code = some text ∧ s.files.write path text = .ok s'.files := by
  unfold writeOutput at h
  dsimp only at h
  split at h
  · next text =>
    obtain ⟨files, hw, rfl⟩ := run_change_eq_ok.mp h
    exact ⟨text, rfl, hw⟩
  · next text command reason =>
    obtain ⟨files, hw, rfl⟩ := run_change_eq_ok.mp h
    exact ⟨text, rfl, hw⟩
  · exact absurd h ne_ok_of_throw
  · cases h

/-- A document that is read gives its queries and changes nothing. -/
theorem load_of_readDocument [Diagnosis] {queries : Queries}
    (h : (readDocument document).run s = (.ok queries, s')) :
    Queries.load s.files document = .ok queries ∧ s' = s := by
  unfold readDocument at h
  rw [run_bind, run_files] at h
  dsimp only at h
  split at h
  · next hl =>
    cases h
    exact ⟨hl, rfl⟩
  · cases h

/-- A report on request leaves the files. -/
theorem run_of_optional_report {α : Type} {line : String} {k : Unit → Command α}
    {r : Except Failure α} (h : (if verbose then report line >>= k else k ()).run s = (r, s')) :
    ∃ s₁, s₁.files = s.files ∧ (k ()).run s₁ = (r, s') := by
  cases verbose with
  | false => exact ⟨s, rfl, h⟩
  | true =>
    rw [if_pos rfl, run_bind, run_report] at h
    exact ⟨{ s with reports := s.reports ++ [line] }, rfl, h⟩

/-- The code of a document is written to its target. -/
theorem code_of_generateDocument [Diagnosis] {count : Nat}
    (h : (generateDocument g out verbose document).run s = (.ok count, s')) :
    ∃ text, code? g s.files document = some text ∧
      s.files.write (target out document) text = .ok s'.files := by
  obtain ⟨queries, s₁, hr, hq⟩ := run_bind_eq_ok.mp h
  obtain ⟨hl, rfl⟩ := load_of_readDocument hr
  obtain ⟨_, s₂, hc, hv⟩ := run_bind_eq_ok.mp hq
  obtain ⟨text, code, hw⟩ := files_of_writeOutput hc
  obtain ⟨s₃, hs, hp⟩ := run_of_optional_report hv
  cases hp
  rw [← hs] at hw
  refine ⟨text, ?_, hw⟩
  rw [code?, hl]
  exact code

/-- The code of all documents is written in order. -/
theorem generatesAll_of_generateDocuments [Diagnosis] {count : Nat}
    (h : (generateDocuments g out verbose documents).run s = (.ok count, s')) :
    ∃ made, made.map Prod.fst = documents ∧ GeneratesAll g out s.files made s'.files := by
  induction documents generalizing s count with
  | nil =>
    cases h
    exact ⟨[], rfl, .nil⟩
  | cons document rest ih =>
    obtain ⟨_, s₁, hd, h⟩ := run_bind_eq_ok.mp h
    obtain ⟨_, s₂, hr, h⟩ := run_bind_eq_ok.mp h
    cases h
    obtain ⟨text, hc, hw⟩ := code_of_generateDocument hd
    obtain ⟨made, hm, others⟩ := ih hr
    exact ⟨(document, text) :: made, by rw [List.map_cons, hm], .cons hc hw others⟩

/-- The documents of a run are those that are found. -/
theorem found_of_findDocuments {paths : List Path}
    (h : (findDocuments paths).run s = (.ok documents, s')) :
    DocumentSearch.run s.files paths = documents ∧ s' = s := by
  unfold findDocuments at h
  rw [run_bind, run_files] at h
  dsimp only at h
  split at h
  · cases h
  · cases h
    exact ⟨rfl, rfl⟩

/-- What a successful run does to the files. -/
theorem generatesAll_of_generate [Diagnosis] {programs : String → Option Formatter.Program}
    {settings : Settings} {options : GenerateOptions} {u : Unit}
    (h : (generate programs settings options verbose).run s = (.ok u, s')) :
    ∃ (start : Session) (made : List (Path × String)) (last : FileTree) (library : String),
      (ensureDirectory (options.outDirectory settings)).run s = (.ok (), start) ∧
      made.map Prod.fst = DocumentSearch.run s.files options.paths ∧
      GeneratesAll (options.generator settings programs start.files) (options.outDirectory settings)
        start.files made last ∧
      last.write ((options.outDirectory settings).join libraryName) library = .ok s'.files := by
  obtain ⟨documents, s₁, hf, hd⟩ := run_bind_eq_ok.mp h
  obtain ⟨found, rfl⟩ := found_of_findDocuments hf
  obtain ⟨_, start, he, hs⟩ := run_bind_eq_ok.mp hd
  obtain ⟨_, s₂, hr, hv⟩ := run_bind_eq_ok.mp hs
  cases hr
  obtain ⟨s₃, h₃, hg⟩ := run_of_optional_report hv
  obtain ⟨count, s₄, hm, hl⟩ := run_bind_eq_ok.mp hg
  obtain ⟨_, s₅, hw, hp⟩ := run_bind_eq_ok.mp hl
  obtain ⟨made, documents, all⟩ := generatesAll_of_generateDocuments hm
  obtain ⟨library, -, written⟩ := files_of_writeOutput hw
  cases hp
  rw [h₃] at all
  exact ⟨start, made, s₄.files, library, he, documents.trans found.symm, all, written⟩

/-! ## Targets -/

/-- A name that ends like a file of accessors is the name of a file. -/
theorem append_suffix_ne (name : String) :
    name ++ ".sql.go" ≠ "" ∧ name ++ ".sql.go" ≠ "." ∧ name ++ ".sql.go" ≠ ".." := by
  have longer (short : String) (h : short.length < 7) : name ++ ".sql.go" ≠ short := by
    intro he
    have := congrArg String.length he
    rw [String.length_append, show ".sql.go".length = 7 from rfl] at this
    omega
  exact ⟨longer "" (by decide), longer "." (by decide), longer ".." (by decide)⟩

/-- The last piece of a target ends like a file of accessors. -/
theorem pieces_target (out document : Path) :
    ∃ before piece, (target out document).pieces = before ++ [piece ++ ".sql.go"] := by
  have tail : '/' ∉ ".sql.go".toList := by decide
  unfold target Path.join
  split
  · exact Path.pieces_append _ tail
  · split
    · rw [← String.append_assoc]
      exact Path.pieces_append _ tail
    · rw [← String.append_assoc]
      exact Path.pieces_append _ tail

/-- The last piece of a target is the stem of its document, made a file of accessors. -/
theorem pieces_target_of_fileStem (out : Path) {stem : String} (h : document.fileStem? = some stem) :
    ∃ before, (target out document).pieces = before ++ [stem ++ ".sql.go"] := by
  unfold target
  rw [h, Option.getD_some]
  refine Path.pieces_join out ?_
  rw [String.toList_append, List.mem_append, not_or]
  exact ⟨Path.slash_not_mem_fileStem h, by decide⟩

/-- Two documents with stems have a target in common exactly if they have the same stem. -/
theorem locate_target_eq_iff {t : FileTree} {location location' : Location} {document' : Path}
    {stem stem' : String} (hs : document.fileStem? = some stem)
    (hs' : document'.fileStem? = some stem')
    (hl : t.locate (target out document) = .ok location)
    (hl' : t.locate (target out document') = .ok location') :
    location = location' ↔ stem = stem' := by
  constructor
  · rintro rfl
    obtain ⟨before, hp⟩ := pieces_target_of_fileStem out hs
    obtain ⟨before', hp'⟩ := pieces_target_of_fileStem out hs'
    have hn := FileTree.getLast?_of_locate hp (append_suffix_ne stem) hl
    rw [FileTree.getLast?_of_locate hp' (append_suffix_ne stem') hl', Option.some.injEq] at hn
    exact (String.append_left_inj _).mp hn.symm
  · rintro rfl
    have same : target out document = target out document' := by
      unfold target
      rw [hs, hs']
      rfl
    rw [same, hl', Except.ok.injEq] at hl
    exact hl.symm

/-- The library file is not where the accessors of a document are. -/
theorem locate_target_ne_library {t : FileTree} {location location' : Location}
    (hl : t.locate (target out document) = .ok location)
    (hl' : t.locate (out.join libraryName) = .ok location') : location ≠ location' := by
  rintro rfl
  obtain ⟨before, piece, hp⟩ := pieces_target out document
  obtain ⟨before', hp'⟩ := Path.pieces_join out (show '/' ∉ libraryName.toList by decide)
  have hn := FileTree.getLast?_of_locate hp (append_suffix_ne piece) hl
  rw [FileTree.getLast?_of_locate hp' (by decide) hl', Option.some.injEq] at hn
  have hr := congrArg (fun name => name.toList.reverse.take 4) hn
  simp only [String.toList_append, List.reverse_append] at hr
  rw [List.take_append_of_le_length (by decide)] at hr
  exact absurd hr (by decide)

/-! ## Files that stay -/

/-- The code of a document is what it was before a file was written elsewhere. -/
theorem code?_of_write [Diagnosis] {files next : FileTree} {path : Path} {text code : String}
    (hw : files.write path text = .ok next) (hn : files.locate document ≠ files.locate path)
    (h : code? g next document = some code) : code? g files document = some code := by
  obtain ⟨queries, hl, hc⟩ := Option.bind_eq_some_iff.mp h
  rw [Queries.load] at hl
  split at hl
  · next source hr =>
    rw [FileTree.read_of_write hw hn] at hr
    rw [code?, Queries.load, hr]
    exact Option.bind_eq_some_iff.mpr ⟨queries, hl, hc⟩
  · cases hl

namespace GeneratesAll

variable [Diagnosis] {files last : FileTree} {made : List (Path × String)}

/-- Directories stay. -/
theorem sameDirectories (h : GeneratesAll g out files made last) :
    FileTree.SameDirectories files last := by
  induction h with
  | nil => exact .refl _
  | cons _ written _ ih => exact (FileTree.sameDirectories_of_write written).trans ih

/-- All targets have a location from the start. -/
theorem locate_target (h : GeneratesAll g out files made last) :
    ∀ m ∈ made, ∃ location, files.locate (target out m.1) = .ok location := by
  induction h with
  | nil => exact fun _ hm => absurd hm List.not_mem_nil
  | cons _ written _ ih =>
    intro m hm
    rcases List.mem_cons.mp hm with rfl | hm
    · obtain ⟨location, hl, -⟩ := FileTree.find?_of_write written
      exact ⟨location, hl⟩
    · obtain ⟨location, hl⟩ := ih m hm
      have same := FileTree.sameDirectories_of_write written
      exact ⟨location, (FileTree.locate_eq_ok_of_sameDirectories same).mpr hl⟩

/-- Only targets change. -/
theorem find?_of_ne (h : GeneratesAll g out files made last) {location : Location}
    (hn : ∀ m ∈ made, files.locate (target out m.1) ≠ .ok location) :
    last.find? location = files.find? location := by
  induction h with
  | nil => rfl
  | @cons files next _ document _ rest _ written _ ih =>
    have same := FileTree.sameDirectories_of_write written
    obtain ⟨first, hl, -, frame⟩ := FileTree.find?_of_write written
    have ne : location ≠ first := by
      rintro rfl
      exact hn _ List.mem_cons_self hl
    have others : ∀ m ∈ rest, next.locate (target out m.1) ≠ .ok location := by
      intro m hm he
      rw [← FileTree.locate_eq_ok_of_sameDirectories same] at he
      exact hn m (List.mem_cons_of_mem _ hm) he
    rw [ih others, frame location ne]

/-- What is at a target in the end is the code of a document with that target. -/
theorem find?_target (h : GeneratesAll g out files made last) : ∀ m ∈ made, ∃ location,
    files.locate (target out m.1) = .ok location ∧ ∃ m' ∈ made,
      files.locate (target out m'.1) = .ok location ∧
        last.find? location = some (.file m'.2) := by
  induction h with
  | nil => exact fun _ hm => absurd hm List.not_mem_nil
  | @cons files next last document text rest _ written others ih =>
    have same := FileTree.sameDirectories_of_write written
    obtain ⟨first, hl, hf, -⟩ := FileTree.find?_of_write written
    intro m hm
    rcases List.mem_cons.mp hm with rfl | hm
    · refine ⟨first, hl, ?_⟩
      by_cases later : ∃ m' ∈ rest, next.locate (target out m'.1) = .ok first
      · -- The last of the later documents with this target decides.
        obtain ⟨m', hm', hl'⟩ := later
        obtain ⟨location, hk, m'', hm'', hk', hf'⟩ := ih m' hm'
        rw [hl', Except.ok.injEq] at hk
        rw [← hk] at hk' hf'
        exact ⟨m'', List.mem_cons_of_mem _ hm'',
          (FileTree.locate_eq_ok_of_sameDirectories same).mpr hk', hf'⟩
      · refine ⟨_, List.mem_cons_self, hl, ?_⟩
        rw [others.find?_of_ne (fun m' hm' he => later ⟨m', hm', he⟩)]
        exact hf
    · obtain ⟨location, hk, m', hm', hk', hf'⟩ := ih m hm
      exact ⟨location, (FileTree.locate_eq_ok_of_sameDirectories same).mpr hk, m',
        List.mem_cons_of_mem _ hm', (FileTree.locate_eq_ok_of_sameDirectories same).mpr hk', hf'⟩

/-- The code of a document that is no target is that of the document at the start. -/
theorem code_at_start (h : GeneratesAll g out files made last) : ∀ m ∈ made,
    (∀ m' ∈ made, files.locate m.1 ≠ files.locate (target out m'.1)) →
      code? g files m.1 = some m.2 := by
  induction h with
  | nil => exact fun _ hm => absurd hm List.not_mem_nil
  | @cons files next _ document text rest code written others ih =>
    have same := FileTree.sameDirectories_of_write written
    intro m hm hn
    rcases List.mem_cons.mp hm with rfl | hm
    · exact code
    · refine code?_of_write written (hn (document, text) List.mem_cons_self) (ih m hm ?_)
      intro m' hm' he
      obtain ⟨location, hl⟩ := others.locate_target m' hm'
      rw [hl, ← FileTree.locate_eq_ok_of_sameDirectories same] at he
      rw [← FileTree.locate_eq_ok_of_sameDirectories same] at hl
      exact hn m' (List.mem_cons_of_mem _ hm') (he.trans hl.symm)

/-- What is read from a target after the library file is written is the code of a document with that
target. -/
theorem read_target (h : GeneratesAll g out files made last) {final : FileTree} {library : String}
    (written : last.write (out.join libraryName) library = .ok final) :
    ∀ m ∈ made, ∃ m' ∈ made,
      files.locate (target out m.1) = files.locate (target out m'.1) ∧
        final.read (target out m.1) = .ok m'.2 := by
  intro m hm
  obtain ⟨location, hl, m', hm', hl', hf⟩ := h.find?_target m hm
  refine ⟨m', hm', hl.trans hl'.symm, ?_⟩
  rw [FileTree.locate_eq_ok_of_sameDirectories h.sameDirectories] at hl
  obtain ⟨place, hp, -, frame⟩ := FileTree.find?_of_write written
  rw [← frame location (locate_target_ne_library hl hp)] at hf
  rw [FileTree.locate_eq_ok_of_sameDirectories (FileTree.sameDirectories_of_write written)] at hl
  exact FileTree.read_eq_ok.mpr ⟨location, hl, hf⟩

/-- Targets with the same location read the same in the end. -/
theorem read_target_congr (h : GeneratesAll g out files made last) {final : FileTree}
    {library : String} (written : last.write (out.join libraryName) library = .ok final)
    {m m' : Path × String} (hm : m ∈ made)
    (he : files.locate (target out m.1) = files.locate (target out m'.1)) :
    final.read (target out m.1) = final.read (target out m'.1) := by
  have same := h.sameDirectories.trans (FileTree.sameDirectories_of_write written)
  obtain ⟨location, hl⟩ := h.locate_target m hm
  have hl' := he.symm.trans hl
  rw [FileTree.locate_eq_ok_of_sameDirectories same] at hl hl'
  unfold FileTree.read FileTree.entry
  rw [hl, hl']

end GeneratesAll

/-! ## The end of a run -/

/-- After a successful run, all documents that were found have their code in their files exactly if
documents with the same target have the same code. The code of a document is that of the document
at the start, unless it lies at a target itself. Documents with stems have the same target exactly
if they have the same stem. -/
theorem accessors_kept_iff [Diagnosis] {programs : String → Option Formatter.Program}
    {settings : Settings} {options : GenerateOptions} {u : Unit}
    (h : (generate programs settings options verbose).run s = (.ok u, s')) :
    ∃ (start : Session) (made : List (Path × String)) (last : FileTree),
      let out := options.outDirectory settings
      let g := options.generator settings programs start.files
      let location (document : Path) := start.files.locate (target out document)
      (ensureDirectory out).run s = (.ok (), start) ∧
      made.map Prod.fst = DocumentSearch.run s.files options.paths ∧
      GeneratesAll g out start.files made last ∧
      (∀ m ∈ made, (∀ m' ∈ made, start.files.locate m.1 ≠ location m'.1) →
        code? g start.files m.1 = some m.2) ∧
      (∀ m ∈ made, ∀ m' ∈ made, ∀ stem stem', m.1.fileStem? = some stem →
        m'.1.fileStem? = some stem' → (location m.1 = location m'.1 ↔ stem = stem')) ∧
      ((∀ m ∈ made, s'.files.read (target out m.1) = .ok m.2) ↔
        ∀ m ∈ made, ∀ m' ∈ made, location m.1 = location m'.1 → m.2 = m'.2) := by
  obtain ⟨start, made, last, library, directory, found, all, written⟩ :=
    generatesAll_of_generate h
  refine ⟨start, made, last, directory, found, all, all.code_at_start, ?_, ?_, ?_⟩
  · intro m hm m' hm' stem stem' hs hs'
    obtain ⟨location, hl⟩ := all.locate_target m hm
    obtain ⟨location', hl'⟩ := all.locate_target m' hm'
    have iff := locate_target_eq_iff hs hs' hl hl'
    dsimp only
    rw [hl, hl', Except.ok.injEq]
    exact iff
  · intro kept m hm m' hm' he
    have hr := all.read_target_congr written hm he
    rw [kept m hm, kept m' hm', Except.ok.injEq] at hr
    exact hr
  · intro agree m hm
    obtain ⟨m', hm', he, hr⟩ := all.read_target written m hm
    rw [agree m hm m' hm' he]
    exact hr

/-- A session on empty documents in the root. -/
def onEmptyDocuments (names : List String) : Session where
  files := { entries := names.map fun name => ([name], .file ""), workingDirectory := [] }

/-- What a run without a formatter makes of the working directory. -/
def generateHere [Diagnosis] : Command Unit := generate (fun _ => none) {} { paths := ["."] } false

/-- A run that gives a value succeeds. -/
theorem exists_eq_ok {c : Command Unit} (h : (c.run s).1.toOption = some ()) :
    ∃ s', c.run s = (.ok (), s') := by
  rcases hr : c.run s with ⟨_ | _, s'⟩
  · rw [hr] at h
    cases h
  · exact ⟨s', rfl⟩

/-- A run on documents with two stems, which keeps the code of both. -/
theorem accessors_kept_of_two_stems : ∃ s',
    generateHere.run (onEmptyDocuments ["x.yaml", "y.yaml"]) = (.ok (), s') ∧
      ∃ made : List (Path × String), made.map Prod.fst = ["./x.yaml", "./y.yaml"] ∧
        ∀ m ∈ made, s'.files.read (target "." m.1) = .ok m.2 := by
  obtain ⟨s', h⟩ : ∃ s',
      generateHere.run (onEmptyDocuments ["x.yaml", "y.yaml"]) = (.ok (), s') :=
    exists_eq_ok (by decide +kernel)
  obtain ⟨start, made, last, -, found, -, -, stems, kept⟩ := accessors_kept_iff h
  have names : made.map Prod.fst = ["./x.yaml", "./y.yaml"] := by
    rw [found]
    decide +kernel
  refine ⟨s', h, made, names, kept.mpr ?_⟩
  obtain ⟨⟨_, x⟩, rest, rfl, rfl, hr⟩ := List.map_eq_cons_iff.mp names
  obtain ⟨⟨_, y⟩, rest, rfl, rfl, hn⟩ := List.map_eq_cons_iff.mp hr
  rw [List.map_eq_nil_iff.mp hn] at stems ⊢
  -- The stems differ, so only a document and itself have the same target.
  have stem_x : Path.fileStem? "./x.yaml" = some "x" := by decide +kernel
  have stem_y : Path.fileStem? "./y.yaml" = some "y" := by decide +kernel
  intro m hm m' hm' he
  have iff := stems m hm m' hm'
  simp only [List.mem_cons, List.not_mem_nil, or_false] at hm hm'
  rcases hm with rfl | rfl <;> rcases hm' with rfl | rfl
  · rfl
  · exact absurd ((iff "x" "y" stem_x stem_y).mp he) (by decide)
  · exact absurd ((iff "y" "x" stem_y stem_x).mp he) (by decide)
  · rfl

/-- Two documents with one stem: both are found and the run succeeds, but the file of accessors
holds the code of the second. -/
theorem accessors_lost_of_one_stem :
    ¬ ∀ (programs : String → Option Formatter.Program) (settings : Settings)
        (options : GenerateOptions) (verbose : Bool) (s s' : Session),
      (generate programs settings options verbose).run s = (.ok (), s') →
        ∀ document ∈ DocumentSearch.run s.files options.paths, ∃ text,
          code? (options.generator settings programs s.files) s.files document = some text ∧
            s'.files.read (target (options.outDirectory settings) document) = .ok text := by
  intro kept
  obtain ⟨s', h⟩ : ∃ s', generateHere.run (onEmptyDocuments ["x.yaml", "x.yml"]) = (.ok (), s') :=
    exists_eq_ok (by decide +kernel)
  obtain ⟨text, hc, hr⟩ := kept _ _ _ _ _ _ h "./x.yaml" (by decide +kernel)
  obtain rfl : s' = (generateHere.run (onEmptyDocuments ["x.yaml", "x.yml"])).2 := by rw [h]
  have same := hc.trans (congrArg Except.toOption hr).symm
  revert same
  decide +kernel

end Command

end QueryBook
