import QueryBook.Proofs.Location
import QueryBook.Proofs.Reading

/-!
# Making directories

Directories are made where nothing is, so all that was there stays where it was and reads as before.
What is new are the directory that is asked for and those that it lies in.
-/

namespace QueryBook

/-- A path, the directory it lies in, and so on. -/
inductive Path.LiesIn : Path → Path → Prop
  | self {p : Path} : LiesIn p p
  | parent {p q r : Path} (parent : p.parent? = some q) (others : LiesIn q r) : LiesIn p r

namespace FileTree

variable {t t' : FileTree} {p : Path} {location : Location} {text : String}

/-! ## Trees that keep another -/

/-- What is in the first tree is in the second, which is seen from the same directory. -/
structure Keeps (t t' : FileTree) : Prop where
  workingDirectory : t.workingDirectory = t'.workingDirectory
  entry : ∀ location e, t.find? location = some e → t'.find? location = some e

theorem Keeps.refl (t : FileTree) : Keeps t t := ⟨rfl, fun _ _ h => h⟩

theorem Keeps.trans {t'' : FileTree} (h : Keeps t t') (h' : Keeps t' t'') : Keeps t t'' :=
  ⟨h.workingDirectory.trans h'.workingDirectory,
    fun location e he => h'.entry location e (h.entry location e he)⟩

/-- Pieces lead where they led. -/
theorem Keeps.follow (h : Keeps t t') (pieces : List String) {start : Location}
    (hf : t.follow start pieces = .ok location) : t'.follow start pieces = .ok location := by
  induction pieces generalizing start with
  | nil => exact hf
  | cons piece rest ih =>
    rw [follow_cons_eq_ok] at hf ⊢
    exact ⟨h.entry _ _ hf.1, ih hf.2⟩

/-- Paths lead where they led. -/
theorem Keeps.locate (h : Keeps t t') (hl : t.locate p = .ok location) :
    t'.locate p = .ok location := by
  unfold FileTree.locate at hl ⊢
  rw [← h.workingDirectory]
  split at hl
  · cases hl
  · next hp =>
    rw [if_neg hp]
    exact h.follow _ hl

/-- Files read as they did. -/
theorem Keeps.read (h : Keeps t t') (hr : t.read p = .ok text) : t'.read p = .ok text := by
  obtain ⟨location, hl, hf⟩ := read_eq_ok.mp hr
  exact read_eq_ok.mpr ⟨location, h.locate hl, h.entry _ _ hf⟩

/-! ## Directories that are made -/

/-- An entry where there was none leaves the others. -/
theorem keeps_put (h : t.find? location = none) (e : FileEntry) : Keeps t (t.put location e) := by
  refine ⟨rfl, fun other e' he => ?_⟩
  have ne : other ≠ location := by
    rintro rfl
    rw [h] at he
    cases he
  rw [find?_put_of_ne t e ne, he]

/-- Making a directory leaves what is there. -/
theorem keeps_of_makeDirectory (h : t.makeDirectory p = .ok t') : Keeps t t' := by
  unfold makeDirectory at h
  obtain ⟨location, -, h⟩ := Reading.bind_eq_ok.mp h
  split at h
  · cases h
  · next hn =>
    cases h
    exact keeps_put hn .directory

/-- Making a directory with those that it lies in leaves what is there. -/
theorem keeps_of_makeDirectories {fuel : Nat} (h : makeDirectories fuel t p = .ok t') :
    Keeps t t' := by
  induction fuel generalizing p t' with
  | zero => cases h
  | succ fuel ih =>
    rw [makeDirectories] at h
    split at h
    · cases h
      exact .refl t
    · split at h
      · next hm =>
        cases h
        exact keeps_of_makeDirectory hm
      · split at h
        · cases h
        · -- The parents are made first, and then the directory in them.
          obtain ⟨inner, hi, h⟩ := Reading.bind_eq_ok.mp h
          split at h
          · next hm =>
            cases h
            exact (ih hi).trans (keeps_of_makeDirectory hm)
          · split at h
            · cases h
              exact ih hi
            · cases h
      · split at h
        · cases h
          exact .refl t
        · cases h

/-! ## What is new -/

/-- Whether all that is new in the second tree are directories, of a path or of those that it lies
in. -/
def MakesOnly (p : Path) (t t' : FileTree) : Prop :=
  ∀ location, t'.find? location ≠ t.find? location →
    t'.find? location = some .directory ∧ ∃ q, p.LiesIn q ∧ t'.locate (bare q) = .ok location

/-- Making a directory makes nothing else. -/
theorem makesOnly_of_makeDirectory (h : t.makeDirectory p = .ok t') : MakesOnly p t t' := by
  have keeps := keeps_of_makeDirectory h
  unfold makeDirectory at h
  obtain ⟨place, hl, h⟩ := Reading.bind_eq_ok.mp h
  split at h
  · cases h
  · next hn =>
    cases h
    intro location changed
    have same : location = place := by
      by_contra ne
      exact changed (find?_put_of_ne t .directory ne)
    have root : place ≠ [] := by
      rintro rfl
      cases hn
    rw [same]
    exact ⟨find?_put_self t .directory root, p, .self, keeps.locate hl⟩

/-- What is made on the way to a path is made for the path. -/
theorem MakesOnly.parent {q : Path} (h : MakesOnly q t t') (hq : p.parent? = some q) :
    MakesOnly p t t' := by
  intro location changed
  obtain ⟨made, r, lies, hl⟩ := h location changed
  exact ⟨made, r, .parent hq lies, hl⟩

theorem MakesOnly.trans {t'' : FileTree} (h : MakesOnly p t t') (h' : MakesOnly p t' t'')
    (keeps : Keeps t' t'') : MakesOnly p t t'' := by
  intro location changed
  by_cases later : t''.find? location = t'.find? location
  · rw [later] at changed
    obtain ⟨made, q, lies, hl⟩ := h location changed
    exact ⟨later.trans made, q, lies, keeps.locate hl⟩
  · exact h' location later

theorem MakesOnly.refl (p : Path) (t : FileTree) : MakesOnly p t t :=
  fun _ changed => absurd rfl changed

/-- Making a directory with those that it lies in makes nothing else. -/
theorem makesOnly_of_makeDirectories {fuel : Nat} (h : makeDirectories fuel t p = .ok t') :
    MakesOnly p t t' := by
  induction fuel generalizing p t' with
  | zero => cases h
  | succ fuel ih =>
    rw [makeDirectories] at h
    split at h
    · cases h
      exact .refl p t
    · split at h
      · next hm =>
        cases h
        exact makesOnly_of_makeDirectory hm
      · split at h
        · cases h
        · next parent hp =>
          -- The parents are made first, and then the directory in them.
          obtain ⟨inner, hi, h⟩ := Reading.bind_eq_ok.mp h
          have parents := (ih hi).parent hp
          split at h
          · next hm =>
            cases h
            exact parents.trans (makesOnly_of_makeDirectory hm) (keeps_of_makeDirectory hm)
          · split at h
            · cases h
              exact parents
            · cases h
      · split at h
        · cases h
          exact .refl p t
        · cases h

end FileTree

end QueryBook
