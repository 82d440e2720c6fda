import QueryBook.Proofs.CheckAndGenerate
import QueryBook.Proofs.PathSpellings
import Mathlib.Data.List.Sort

/-!
# Searching for documents

A search puts every document that its arguments stand for in its place among those found so far. So
the result is in strictly ascending order and holds each of them once, in one of its spellings; and
as the order does not see the spelling, arguments that are the same paths give the same result.
-/

namespace QueryBook

namespace DocumentSearch

variable {files : FileTree} {argument document p q : Path} {found paths paths' : List Path}

/-! ## What arguments stand for -/

/-- What an argument stands for: itself, unless it is a directory, and then the files directly
inside of it with an extension of documents. -/
inductive StandsFor (files : FileTree) (argument : Path) : Path → Prop
  | document (hfile : files.isDirectory argument = false) : StandsFor files argument argument
  | inside {location : Location} {name text : String}
      (hlocate : files.locate argument = .ok location)
      (hdirectory : files.find? location = some .directory)
      (hfile : (location ++ [name], FileEntry.file text) ∈ files.entries)
      (hextension : Path.extension? name = some "yaml" ∨ Path.extension? name = some "yml") :
      StandsFor files argument (argument.join name)

/-- The names of the files directly inside of a directory. -/
theorem mem_fileNames {location : Location} (h : files.locate argument = .ok location)
    {name : String} : name ∈ files.fileNames argument ↔
      ∃ text, (location ++ [name], FileEntry.file text) ∈ files.entries := by
  unfold FileTree.fileNames
  rw [h]
  dsimp only
  rw [List.mem_filterMap]
  constructor
  · rintro ⟨⟨place, e⟩, hmem, heq⟩
    dsimp only at heq
    split at heq
    · next text last hlast =>
      split at heq
      · next hplace =>
        cases heq
        obtain ⟨before, rfl⟩ := List.getLast?_eq_some_iff.mp hlast
        rw [List.dropLast_concat] at hplace
        exact ⟨text, hplace ▸ hmem⟩
      · cases heq
    · cases heq
  · rintro ⟨text, hmem⟩
    exact ⟨_, hmem, by simp⟩

/-- An argument is replaced by the documents it stands for. -/
theorem mem_expand : document ∈ expand files argument ↔ StandsFor files argument document := by
  unfold expand
  split
  · next hdirectory =>
    obtain ⟨location, hlocate, hfind⟩ := FileTree.isDirectory_iff.mp hdirectory
    simp only [List.mem_map, List.mem_filter, mem_fileNames hlocate, isDocumentName,
      Bool.or_eq_true, decide_eq_true_eq]
    constructor
    · rintro ⟨name, ⟨⟨text, hfile⟩, hextension⟩, rfl⟩
      exact .inside hlocate hfind hfile hextension
    · rintro (hfile | ⟨hlocate', hfind', hfile, hextension⟩)
      · rw [hdirectory] at hfile
        cases hfile
      · rw [hlocate, Except.ok.injEq] at hlocate'
        subst hlocate'
        exact ⟨_, ⟨⟨_, hfile⟩, hextension⟩, rfl⟩
  · next hfile =>
    rw [List.mem_singleton]
    constructor
    · rintro rfl
      exact .document (Bool.eq_false_iff.mpr hfile)
    · rintro (- | ⟨hlocate, hdirectory, -, -⟩)
      · rfl
      · exact absurd (FileTree.isDirectory_iff.mpr ⟨_, hlocate, hdirectory⟩) hfile

/-- Arguments stand for the same documents in all their spellings. -/
theorem StandsFor.of_same (h : StandsFor files p document) (hsame : p.same q) :
    ∃ document', StandsFor files q document' ∧ document.same document' := by
  cases h with
  | document hfile =>
    exact ⟨q, .document (FileTree.isDirectory_eq_of_same hsame ▸ hfile), hsame⟩
  | @inside location name text hlocate hdirectory hfile hextension =>
    obtain ⟨hlocate', -⟩ := (FileTree.directory_iff_of_same hsame).mp ⟨hlocate, hdirectory⟩
    exact ⟨q.join name, .inside hlocate' hdirectory hfile hextension, Path.same_join hsame name⟩

/-! ## Putting documents in their places -/

/-- One path is before another if its components are. -/
theorem before_trans {r : Path} (hpq : p.before q) (hqr : q.before r) : p.before r :=
  trans_of (fun as bs : List PathComponent => Path.componentsBefore as bs) hpq hqr

/-- A path is not before another spelling of it. -/
theorem not_same_of_before (h : p.before q) : ¬ p.same q := by
  rw [Path.same_iff]
  intro hsame
  rw [Path.before, hsame] at h
  exact irrefl_of (fun as bs : List PathComponent => Path.componentsBefore as bs) _ h

/-- Of two paths one is before the other. -/
theorem before_of_not_before (h : ¬ p.before q) (hsame : ¬ p.same q) : q.before p := by
  rw [Path.same_iff] at hsame
  rcases trichotomous_of (fun as bs : List PathComponent => Path.componentsBefore as bs)
    p.components q.components with hlt | heq | hgt
  · exact absurd hlt h
  · exact absurd heq hsame
  · exact hgt

/-- What is found after a path is put in its place was found before, or is the path. -/
theorem mem_of_mem_insertPath (h : q ∈ insertPath p found) : q = p ∨ q ∈ found := by
  induction found with
  | nil => exact .inl (List.mem_singleton.mp h)
  | cons r rest ih =>
    rw [insertPath] at h
    split at h
    · exact List.mem_cons.mp h
    · split at h
      · exact .inr h
      · rcases List.mem_cons.mp h with rfl | h
        · exact .inr List.mem_cons_self
        · exact (ih h).imp_right (List.mem_cons_of_mem r)

/-- What was found stays. -/
theorem mem_insertPath_of_mem (h : q ∈ found) : q ∈ insertPath p found := by
  induction found with
  | nil => cases h
  | cons r rest ih =>
    rw [insertPath]
    split
    · exact List.mem_cons_of_mem p h
    · split
      · exact h
      · rcases List.mem_cons.mp h with rfl | h
        · exact List.mem_cons_self
        · exact List.mem_cons_of_mem r (ih h)

/-- A path that is put in its place is found, if not in its own spelling. -/
theorem exists_same_mem_insertPath (p : Path) (found : List Path) :
    ∃ q ∈ insertPath p found, p.same q := by
  induction found with
  | nil => exact ⟨p, List.mem_cons_self, by simp⟩
  | cons r rest ih =>
    rw [insertPath]
    split
    · exact ⟨p, List.mem_cons_self, by simp⟩
    · split
      · next hsame => exact ⟨r, List.mem_cons_self, hsame⟩
      · obtain ⟨q, hq, hsame⟩ := ih
        exact ⟨q, List.mem_cons_of_mem r hq, hsame⟩

/-- A path that is put in its place among ascending ones leaves them ascending. -/
theorem pairwise_insertPath (h : found.Pairwise fun p q => p.before q) :
    (insertPath p found).Pairwise fun p q => p.before q := by
  induction found with
  | nil => exact List.pairwise_singleton _ p
  | cons r rest ih =>
    obtain ⟨hr, hrest⟩ := List.pairwise_cons.mp h
    rw [insertPath]
    split
    · next hbefore =>
      refine List.pairwise_cons.mpr ⟨?_, h⟩
      intro q hq
      rcases List.mem_cons.mp hq with rfl | hq
      · exact hbefore
      · exact before_trans hbefore (hr q hq)
    · next hbefore =>
      split
      · exact h
      · next hsame =>
        refine List.pairwise_cons.mpr ⟨?_, ih hrest⟩
        intro q hq
        rcases mem_of_mem_insertPath hq with rfl | hq
        · exact before_of_not_before hbefore hsame
        · exact hr q hq

/-! ## Searching -/

/-- Whether paths in strictly ascending order are the documents that arguments stand for, each of
them once. -/
structure IsExact (files : FileTree) (paths found : List Path) : Prop where
  ascending : found.Pairwise fun p q => p.before q
  once : found.Pairwise fun p q => ¬ p.same q
  sound : ∀ q ∈ found, ∃ p ∈ paths, StandsFor files p q
  complete : ∀ p ∈ paths, ∀ q, StandsFor files p q → ∃ q' ∈ found, q.same q'

/-- Paths are put in their places one after the other. -/
theorem foldl_insertPath (documents : List Path) (h : found.Pairwise fun p q => p.before q) :
    let result := documents.foldl (fun found p => insertPath p found) found
    (result.Pairwise fun p q => p.before q) ∧ (∀ q ∈ result, q ∈ documents ∨ q ∈ found) ∧
      (∀ q ∈ found, q ∈ result) ∧ ∀ q ∈ documents, ∃ q' ∈ result, q.same q' := by
  induction documents generalizing found with
  | nil => exact ⟨h, fun q hq => .inr hq, fun q hq => hq, nofun⟩
  | cons p rest ih =>
    obtain ⟨hascending, hsound, hkept, hcomplete⟩ := ih (pairwise_insertPath (p := p) h)
    refine ⟨hascending, ?_, fun q hq => hkept q (mem_insertPath_of_mem hq), ?_⟩
    · intro q hq
      rcases hsound q hq with hrest | hinsert
      · exact .inl (List.mem_cons_of_mem p hrest)
      · rcases mem_of_mem_insertPath hinsert with rfl | hq
        · exact .inl List.mem_cons_self
        · exact .inr hq
    · intro q hq
      rcases List.mem_cons.mp hq with rfl | hq
      · obtain ⟨q', hq', hsame⟩ := exists_same_mem_insertPath q found
        exact ⟨q', hkept q' hq', hsame⟩
      · exact hcomplete q hq

/-- A search is exact. -/
theorem isExact_run (files : FileTree) (paths : List Path) : IsExact files paths (run files paths) := by
  obtain ⟨hascending, hsound, -, hcomplete⟩ :=
    foldl_insertPath (paths.flatMap (expand files)) List.Pairwise.nil
  refine ⟨hascending, hascending.imp not_same_of_before, ?_, ?_⟩
  · intro q hq
    obtain ⟨p, hp, hexpand⟩ := List.mem_flatMap.mp ((hsound q hq).resolve_right List.not_mem_nil)
    exact ⟨p, hp, mem_expand.mp hexpand⟩
  · intro p hp q hq
    exact hcomplete q (List.mem_flatMap.mpr ⟨p, hp, mem_expand.mpr hq⟩)

/-- A search finds nothing exactly if its arguments stand for nothing. -/
theorem run_eq_nil_iff : run files paths = [] ↔ ∀ p ∈ paths, ∀ q, ¬ StandsFor files p q := by
  have hexact := isExact_run files paths
  constructor
  · intro hnil p hp q hq
    obtain ⟨q', hq', -⟩ := hexact.complete p hp q hq
    rw [hnil] at hq'
    cases hq'
  · intro hnone
    refine List.eq_nil_iff_forall_not_mem.mpr fun q hq => ?_
    obtain ⟨p, hp, hstands⟩ := hexact.sound q hq
    exact hnone p hp q hstands

/-- What is found has the components of what is found from other spellings of the arguments. -/
theorem IsExact.components_subset {found' : List Path} (h : IsExact files paths found)
    (h' : IsExact files paths' found') (hpaths : ∀ p ∈ paths, ∃ p' ∈ paths', p.same p') :
    found.map Path.components ⊆ found'.map Path.components := by
  intro components hmem
  obtain ⟨q, hq, rfl⟩ := List.mem_map.mp hmem
  obtain ⟨p, hp, hstands⟩ := h.sound q hq
  obtain ⟨p', hp', hsame⟩ := hpaths p hp
  obtain ⟨q', hstands', hqq'⟩ := hstands.of_same hsame
  obtain ⟨q'', hq'', hq'q''⟩ := h'.complete p' hp' q' hstands'
  exact List.mem_map.mpr ⟨q'', hq'', ((Path.same_iff.mp hqq').trans (Path.same_iff.mp hq'q'')).symm⟩

/-- Arguments that are the same paths give the same documents. -/
theorem components_run_eq (files : FileTree) (h : ∀ p ∈ paths, ∃ p' ∈ paths', p.same p')
    (h' : ∀ p' ∈ paths', ∃ p ∈ paths, p'.same p) :
    (run files paths).map Path.components = (run files paths').map Path.components := by
  have hexact := isExact_run files paths
  have hexact' := isExact_run files paths'
  have hascending : ∀ {found : List Path}, (found.Pairwise fun p q => p.before q) →
      (found.map Path.components).Pairwise fun as bs => Path.componentsBefore as bs :=
    fun hfound => List.pairwise_map.mpr hfound
  exact List.Subset.antisymm_of_pairwise (hascending hexact.ascending) (hascending hexact'.ascending)
    (hexact.components_subset hexact' h) (hexact'.components_subset hexact h')

end DocumentSearch

end QueryBook
