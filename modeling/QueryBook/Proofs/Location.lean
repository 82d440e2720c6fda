import QueryBook.FileTree
import QueryBook.Proofs.Pieces

/-!
# Where paths lead

A path is followed through directories alone, so writing a file changes no location. The last piece
of a path is the name of its location, and a file that is written is read back from every path to
its location.
-/

namespace QueryBook

namespace Path

/-- What is put behind a path without a slash is part of its last piece. -/
theorem pieces_append (p : Path) {tail : String} (h : '/' ∉ tail.toList) :
    ∃ before piece, pieces (p ++ tail) = before ++ [piece ++ tail] := by
  obtain ⟨before, piece, -, hs⟩ := Text.splitOnChar_append_of_not_mem p.toList h
  refine ⟨before.map String.ofList, String.ofList piece, ?_⟩
  rw [pieces, String.toList_append, hs, List.map_append]
  simp

/-- A name behind a directory is the last piece. -/
theorem pieces_join (p : Path) {name : String} (h : '/' ∉ name.toList) :
    ∃ before, pieces (p.join name) = before ++ [name] := by
  have single : pieces name = [name] := by
    simp [pieces, Text.splitOnChar_of_not_mem h]
  have behind (text : List Char) : ∃ before,
      (Text.splitOnChar '/' (text ++ '/' :: name.toList)).map String.ofList = before ++ [name] := by
    refine ⟨(Text.splitOnChar '/' text).map String.ofList, ?_⟩
    rw [Text.splitOnChar_append, Text.splitOnChar_of_not_mem h]
    simp
  unfold join
  split
  · exact ⟨[], single⟩
  · split
    · next hl =>
      obtain ⟨text, ht⟩ := List.getLast?_eq_some_iff.mp hl
      obtain ⟨before, hb⟩ := behind text
      exact ⟨before, by rw [pieces, String.toList_append, ht, List.append_assoc]; exact hb⟩
    · obtain ⟨before, hb⟩ := behind p.toList
      exact ⟨before, by simpa [pieces, String.toList_append] using hb⟩

/-- The name of a path is one of its pieces. -/
theorem fileName?_mem_pieces {p : Path} {name : String} (h : p.fileName? = some name) :
    name ∈ p.pieces := by
  have hc : (PathComponent.name name) ∈ p.components := by
    unfold fileName? at h
    split at h
    · next text hl =>
      cases h
      exact List.mem_of_getLast? hl
    · cases h
  have hm : (PathComponent.name name) ∈ p.pieces.filterMap componentOf? := by
    unfold components at hc
    dsimp only at hc
    split at hc
    · simpa using hc
    · split at hc
      · simpa using hc
      · exact hc
  obtain ⟨piece, hp, he⟩ := List.mem_filterMap.mp hm
  unfold componentOf? at he
  split at he
  · cases he
  · split at he
    · cases he
    · cases he
      exact hp

/-- A name starts with what is before its last dot. -/
theorem splitName_fst_subset (name : String) : (splitName name).1.toList ⊆ name.toList := by
  unfold splitName
  dsimp only
  split
  · next before hd =>
    split
    · exact List.Subset.refl _
    · intro c hc
      have : c ∈ name.toList.reverse.dropWhile (· ≠ '.') := by
        rw [hd]
        exact List.mem_cons_of_mem _ (by simpa using hc)
      exact List.mem_reverse.mp ((List.dropWhile_sublist _).subset this)
  · exact List.Subset.refl _

/-- A stem holds no slash. -/
theorem slash_not_mem_fileStem {p : Path} {stem : String} (h : p.fileStem? = some stem) :
    '/' ∉ stem.toList := by
  obtain ⟨name, hn, rfl⟩ := Option.map_eq_some_iff.mp h
  obtain ⟨piece, hp, rfl⟩ := List.mem_map.mp (fileName?_mem_pieces hn)
  intro hc
  have := splitName_fst_subset _ hc
  rw [String.toList_ofList] at this
  exact Text.not_mem_of_mem_splitOnChar hp this

end Path

namespace FileTree

variable {t t' : FileTree} {p : Path} {location : Location} {text : String}

/-! ## Following paths -/

/-- Two trees with the same directories, seen from the same one. -/
structure SameDirectories (t t' : FileTree) : Prop where
  workingDirectory : t.workingDirectory = t'.workingDirectory
  directory : ∀ location, t.find? location = some .directory ↔ t'.find? location = some .directory

theorem SameDirectories.refl (t : FileTree) : SameDirectories t t := ⟨rfl, fun _ => Iff.rfl⟩

theorem SameDirectories.trans {t'' : FileTree} (h : SameDirectories t t')
    (h' : SameDirectories t' t'') : SameDirectories t t'' :=
  ⟨h.workingDirectory.trans h'.workingDirectory,
    fun location => (h.directory location).trans (h'.directory location)⟩

/-- Pieces lead on exactly from a directory. -/
theorem follow_cons_eq_ok {piece : String} {rest : List String} {start : Location} :
    t.follow start (piece :: rest) = .ok location ↔
      t.find? start = some .directory ∧
        t.follow (if piece = "" ∨ piece = "." then start
          else if piece = ".." then start.dropLast else start ++ [piece]) rest = .ok location := by
  rw [follow]
  rcases t.find? start with - | ⟨_ | _⟩
  · simp
  · simp
  · simp only [Bool.or_eq_true, decide_eq_true_eq, true_and]
    split
    · rfl
    · split <;> rfl

/-- Pieces lead to the same location where the directories are the same. -/
theorem follow_eq_ok_of_sameDirectories (h : SameDirectories t t') (pieces : List String)
    {start : Location} : t.follow start pieces = .ok location ↔
      t'.follow start pieces = .ok location := by
  induction pieces generalizing start with
  | nil => rw [follow, follow]
  | cons piece rest ih => rw [follow_cons_eq_ok, follow_cons_eq_ok, h.directory, ih]

/-- A path leads to the same location where the directories are the same. -/
theorem locate_eq_ok_of_sameDirectories (h : SameDirectories t t') :
    t.locate p = .ok location ↔ t'.locate p = .ok location := by
  unfold locate
  rw [h.workingDirectory]
  split
  · simp
  · exact follow_eq_ok_of_sameDirectories h _

/-- A name is the last on the way that it ends. -/
theorem getLast?_of_follow {before : List String} {name : String} {start : Location}
    (hn : name ≠ "" ∧ name ≠ "." ∧ name ≠ "..")
    (h : t.follow start (before ++ [name]) = .ok location) : location.getLast? = some name := by
  induction before generalizing start with
  | nil =>
    rw [List.nil_append, follow_cons_eq_ok] at h
    have hl := h.2
    rw [if_neg (by simp [hn]), if_neg hn.2.2, follow, Except.ok.injEq] at hl
    rw [← hl, List.getLast?_concat]
  | cons piece rest ih =>
    rw [List.cons_append, follow_cons_eq_ok] at h
    exact ih h.2

/-- The last piece of a path is the name of its location. -/
theorem getLast?_of_locate {before : List String} {name : String}
    (hp : p.pieces = before ++ [name]) (hn : name ≠ "" ∧ name ≠ "." ∧ name ≠ "..")
    (h : t.locate p = .ok location) : location.getLast? = some name := by
  unfold locate at h
  split at h
  · cases h
  · rw [hp] at h
    exact getLast?_of_follow hn h

/-! ## Reading and writing -/

/-- A text is read from a path exactly if the path leads to a file with it. -/
theorem read_eq_ok : t.read p = .ok text ↔
    ∃ location, t.locate p = .ok location ∧ t.find? location = some (.file text) := by
  unfold read entry
  cases t.locate p with
  | error e => simp [bind, Except.bind]
  | ok location =>
    rcases h : t.find? location with - | ⟨other | _⟩ <;> simp [bind, Except.bind, h]

theorem bare_eq_self (h : endsWithSlash p = false) : bare p = p := by
  have hd : Text.dropEndWhile (· = '/') p.toList = p.toList := by
    refine Text.dropEndWhile_eq_self fun c hc => ?_
    rw [endsWithSlash, decide_eq_false_iff_not, Option.mem_def.mp hc] at h
    simpa using h
  unfold bare
  rw [hd]
  split
  · rfl
  · exact String.ofList_toList

/-- A file is written exactly if its path leads to no directory and does not ask for one. -/
theorem write_eq_ok : t.write p text = .ok t' ↔
    endsWithSlash p = false ∧ ∃ location, t.locate p = .ok location ∧
      t.find? location ≠ some .directory ∧ t' = t.put location (.file text) := by
  unfold write
  cases hs : endsWithSlash p with
  | true => cases t.locate (bare p) <;> simp [bind, Except.bind]
  | false =>
    rw [bare_eq_self hs]
    cases t.locate p with
    | error e => simp [bind, Except.bind]
    | ok location =>
      by_cases hd : t.find? location = some .directory
      · simp [bind, Except.bind, hd]
      · simp [bind, Except.bind, hd, eq_comm (a := t')]

/-- A file in the place of no directory leaves the directories. -/
theorem sameDirectories_put (h : t.find? location ≠ some .directory) (text : String) :
    SameDirectories t (t.put location (.file text)) := by
  refine ⟨rfl, fun other => ?_⟩
  by_cases ho : other = location
  · have hl : location ≠ [] := by
      rintro rfl
      exact h rfl
    rw [ho, find?_put_self t _ hl]
    simp [h]
  · rw [find?_put_of_ne t _ ho]

/-- Writing a file leaves the directories. -/
theorem sameDirectories_of_write (h : t.write p text = .ok t') : SameDirectories t t' := by
  obtain ⟨-, location, -, hd, rfl⟩ := write_eq_ok.mp h
  exact sameDirectories_put hd text

/-- A file that is written is where its path leads, and nothing changes elsewhere. -/
theorem find?_of_write (h : t.write p text = .ok t') : ∃ location, t.locate p = .ok location ∧
    t'.find? location = some (.file text) ∧
      ∀ other, other ≠ location → t'.find? other = t.find? other := by
  obtain ⟨-, location, hl, hd, rfl⟩ := write_eq_ok.mp h
  have hn : location ≠ [] := by
    rintro rfl
    exact hd rfl
  exact ⟨location, hl, find?_put_self t _ hn, fun other ho => find?_put_of_ne t _ ho⟩

/-- A file at another location reads as before a file is written. -/
theorem read_of_write {path : Path} {written : String} (hw : t.write path written = .ok t')
    (hn : t.locate p ≠ t.locate path) : t'.read p = .ok text ↔ t.read p = .ok text := by
  have same := sameDirectories_of_write hw
  obtain ⟨place, hp, -, frame⟩ := find?_of_write hw
  have elsewhere (location : Location) (hl : t.locate p = .ok location) :
      t'.find? location = t.find? location := by
    refine frame location ?_
    rintro rfl
    exact hn (hl.trans hp.symm)
  rw [read_eq_ok, read_eq_ok]
  constructor
  · rintro ⟨location, hl, hf⟩
    rw [← locate_eq_ok_of_sameDirectories same] at hl
    exact ⟨location, hl, (elsewhere location hl).symm.trans hf⟩
  · rintro ⟨location, hl, hf⟩
    exact ⟨location, (locate_eq_ok_of_sameDirectories same).mp hl, (elsewhere location hl).trans hf⟩

end FileTree

end QueryBook
