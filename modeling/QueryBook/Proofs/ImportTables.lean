import QueryBook.Accessor.Import
import QueryBook.Proofs.Reading

/-!
# What import tables know

Adding an import to a table may change the path of a qualifier but never loses a qualifier. Whether
queries resolve depends only on the qualifiers that the table knows, so queries that resolve against
a table also resolve when imports are added to it.
-/

namespace QueryBook.ImportTable

/-! ## Adding imports -/

/-- An entry that is put in its place is found there; the others are found as before. -/
theorem lookup_insertEntry (qualifier path other : String) (entries : List (String × String)) :
    (insertEntry qualifier path entries).lookup other =
      if other = qualifier then some path else entries.lookup other := by
  have lookup_cons (e : String × String) (rest : List (String × String)) :
      (e :: rest).lookup other = if other = e.1 then some e.2 else rest.lookup other := by
    by_cases h : other = e.1
    · rw [if_pos h, h, List.lookup_cons_self]
    · rw [if_neg h, List.lookup_cons, beq_eq_false_iff_ne.mpr h]
  induction entries with
  | nil => rw [insertEntry, lookup_cons]
  | cons e rest ih =>
    rw [insertEntry]
    split
    · rw [lookup_cons (qualifier, path)]
    · split
      · next he =>
        rw [lookup_cons (qualifier, path), lookup_cons e, ← he]
        split <;> rfl
      · next he =>
        rw [lookup_cons e, lookup_cons e, ih]
        by_cases ho : other = e.1
        · rw [if_pos ho, if_pos ho, if_neg fun hq => he (hq.symm.trans ho)]
        · rw [if_neg ho, if_neg ho]

/-- The path of a qualifier after an entry is put in. -/
theorem get?_insert (t : ImportTable) (qualifier path other : String) :
    (t.insert qualifier path).get? other = if other = qualifier then some path else t.get? other :=
  lookup_insertEntry qualifier path other t.entries

/-- Registering an import puts in one entry at most. -/
theorem register_eq_self_or_insert (t : ImportTable) (entry : String) :
    t.register entry = t ∨ ∃ qualifier path, t.register entry = t.insert qualifier path := by
  unfold register
  dsimp only
  split
  · split
    · exact .inr ⟨_, _, rfl⟩
    · exact .inr ⟨_, _, rfl⟩
  · split
    · exact .inl rfl
    · exact .inr ⟨_, _, rfl⟩

/-- Another table knows all qualifiers of a table, if perhaps by other paths. -/
def Extends (t t' : ImportTable) : Prop :=
  ∀ qualifier, (t.get? qualifier).isSome → (t'.get? qualifier).isSome

theorem Extends.refl (t : ImportTable) : Extends t t := fun _ h => h

theorem Extends.trans {t t' t'' : ImportTable} (h : Extends t t') (h' : Extends t' t'') :
    Extends t t'' :=
  fun qualifier hq => h' qualifier (h qualifier hq)

/-- Registering an import loses no qualifier. -/
theorem extends_register (t : ImportTable) (entry : String) : Extends t (t.register entry) := by
  rcases register_eq_self_or_insert t entry with h | ⟨qualifier, path, h⟩
  · rw [h]
    exact .refl t
  · intro other ho
    rw [h, get?_insert]
    split
    · rfl
    · exact ho

/-- Registering imports in a row loses no qualifier. -/
theorem extends_foldl_register (t : ImportTable) (entries : List String) :
    Extends t (entries.foldl register t) := by
  induction entries generalizing t with
  | nil => exact .refl t
  | cons entry rest ih => exact (extends_register t entry).trans (ih (t.register entry))

/-- A table with further imports knows the qualifiers of the table without them. -/
theorem extends_ofEntries_append (entries further : List String) :
    Extends (ofEntries entries) (ofEntries (entries ++ further)) := by
  rw [ofEntries, ofEntries, List.foldl_append]
  exact extends_foldl_register _ further

/-! ## Resolving queries -/

/-- Adding the imports of uses succeeds exactly if all qualifiers are known. -/
theorem exists_foldlM_resolveUse {t : ImportTable} {uses : List QualifierUse} {s : ImportSet} :
    (∃ imports, uses.foldlM t.resolveUse s = .ok imports) ↔
      ∀ u ∈ uses, (t.get? u.qualifier).isSome := by
  induction uses generalizing s with
  | nil => exact ⟨fun _ _ hu => absurd hu List.not_mem_nil, fun _ => ⟨s, rfl⟩⟩
  | cons u rest ih =>
    simp only [Reading.foldlM_cons_eq_ok, List.forall_mem_cons]
    cases hu : t.get? u.qualifier with
    | none => simp [resolveUse, hu]
    | some path => simp [resolveUse, hu, ih]

/-- Queries resolve exactly if the table knows all their qualifiers. -/
theorem exists_resolve {t : ImportTable} {queries : List Query} :
    (∃ imports, t.resolve queries = .ok imports) ↔
      ∀ u ∈ queries.flatMap QualifierUse.ofQuery, (t.get? u.qualifier).isSome :=
  exists_foldlM_resolveUse

/-- Queries that resolve against a table resolve against one that knows more. -/
theorem exists_resolve_of_extends {t t' : ImportTable} {queries : List Query} (h : Extends t t')
    (hr : ∃ imports, t.resolve queries = .ok imports) :
    ∃ imports, t'.resolve queries = .ok imports :=
  exists_resolve.mpr fun u hu => h u.qualifier (exists_resolve.mp hr u hu)

end QueryBook.ImportTable
