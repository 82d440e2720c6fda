import Mathlib.Data.List.Nodup
import QueryBook.Accessor.Code
import QueryBook.Proofs.Grammar
import QueryBook.Proofs.ImportTables

/-!
# Names that imports bind

An import binds the name it is written with, or the last segment of its path if it is written with
none. The imports that queries need bind the qualifiers of the field types, each of them once. The
file imports the context besides them, so all names are distinct exactly if no field type is
qualified by that name.
-/

namespace QueryBook

/-! ## Qualifiers -/

namespace Qualifier

/-- A scan finds no empty qualifiers, unless it is in the middle of one. -/
theorem ne_empty_of_mem_scan {run : Option (List Char)} {afterWord : Bool} {text : List Char}
    {qualifier : String} (hrun : run ≠ some []) (h : qualifier ∈ scan run afterWord text) :
    qualifier ≠ "" := by
  -- Only the end of an identifier yields a qualifier, and an identifier under way has a character.
  induction text generalizing run afterWord with
  | nil =>
    rw [scan] at h
    exact absurd h List.not_mem_nil
  | cons c rest ih =>
    cases run with
    | some before =>
      rw [scan] at h
      split at h
      · exact ih (by simp) h
      · split at h
        · rcases List.mem_cons.mp h with rfl | h
          · intro hempty
            apply hrun
            rw [← String.toList_inj, String.toList_ofList] at hempty
            rw [List.reverse_eq_nil_iff.mp hempty]
          · exact ih (by simp) h
        · exact ih (by simp) h
    | none =>
      rw [scan] at h
      split at h
      · exact ih (by simp) h
      · exact ih (by simp) h

/-- A type has no empty qualifiers. -/
theorem ne_empty_of_mem_ofType {type qualifier : String} (h : qualifier ∈ ofType type) :
    qualifier ≠ "" :=
  ne_empty_of_mem_scan (by simp) h

end Qualifier

/-! ## Imports -/

namespace Import

/-- The name that an import binds in a file. -/
def boundName (i : Import) : String :=
  if i.localName.isEmpty then String.ofList (((Text.splitOnChar '/' i.path.toList).getLast?).getD [])
  else i.localName

/-- The import of a path under a qualifier binds the qualifier. -/
theorem boundName_ofQualifier {qualifier : String} (h : qualifier ≠ "") (path : String) :
    (ofQualifier qualifier path).boundName = qualifier := by
  by_cases hlast : ((Text.splitOnChar '/' path.toList).getLast?).getD [] = qualifier.toList
  · simp [boundName, ofQualifier, hlast]
  · simp [boundName, ofQualifier, hlast, h]

theorem not_before_self (i : Import) : ¬ i.before i := by
  simp [before]

/-- What is before an import that is before another is before the other. -/
theorem before_trans {a b c : Import} (hab : a.before b) (hbc : b.before c) : a.before c := by
  simp only [before, Bool.or_eq_true, Bool.and_eq_true, decide_eq_true_eq] at *
  rcases hab with hab | ⟨hab, hab'⟩ <;> rcases hbc with hbc | ⟨hbc, hbc'⟩
  · exact .inl (String.lt_trans hab hbc)
  · exact .inl (hbc ▸ hab)
  · exact .inl (hab ▸ hbc)
  · exact .inr ⟨hab.trans hbc, String.lt_trans hab' hbc'⟩

/-- Of two imports one is before the other. -/
theorem before_of_not_before {a b : Import} (h : ¬ a.before b) (hne : a ≠ b) : b.before a := by
  simp only [before, Bool.or_eq_true, Bool.and_eq_true, decide_eq_true_eq, not_or, not_and] at *
  rcases Std.lt_trichotomy a.path b.path with hp | hp | hp
  · exact absurd hp h.1
  · rcases Std.lt_trichotomy a.localName b.localName with hn | hn | hn
    · exact absurd hn (h.2 hp)
    · exact absurd (Import.mk.injEq .. ▸ ⟨hp, hn⟩ : a = b) hne
    · exact .inr ⟨hp.symm, hn⟩
  · exact .inl hp

end Import

/-! ## Import sets -/

namespace ImportSet

/-- The imports after one is put in its place. -/
theorem mem_insertSorted {i j : Import} {l : List Import} :
    j ∈ insertSorted i l ↔ j = i ∨ j ∈ l := by
  induction l with
  | nil => simp [insertSorted]
  | cons other rest ih =>
    rw [insertSorted]
    split
    · rw [List.mem_cons]
    · split
      · next h => simp [h]
      · rw [List.mem_cons, ih, List.mem_cons, or_left_comm]

/-- An import that is put in its place among ascending ones leaves them ascending. -/
theorem pairwise_insertSorted {i : Import} {l : List Import} (h : l.Pairwise fun a b => a.before b) :
    (insertSorted i l).Pairwise fun a b => a.before b := by
  induction l with
  | nil => exact List.pairwise_singleton _ i
  | cons other rest ih =>
    obtain ⟨hother, hrest⟩ := List.pairwise_cons.mp h
    rw [insertSorted]
    split
    · next hi =>
      refine List.pairwise_cons.mpr ⟨?_, h⟩
      intro j hj
      rcases List.mem_cons.mp hj with rfl | hj
      · exact hi
      · exact Import.before_trans hi (hother j hj)
    · next hi =>
      split
      · exact h
      · next hne =>
        refine List.pairwise_cons.mpr ⟨?_, ih hrest⟩
        intro j hj
        rcases mem_insertSorted.mp hj with rfl | hj
        · exact Import.before_of_not_before hi hne
        · exact hother j hj

end ImportSet

/-! ## What resolving yields -/

namespace ImportTable

/-- The import that a qualifier needs. -/
def importOf (t : ImportTable) (qualifier : String) : Option Import :=
  (t.get? qualifier).map (.ofQualifier qualifier)

/-- The import that a qualifier needs binds the qualifier. -/
theorem boundName_importOf {t : ImportTable} {qualifier : String} {i : Import} (hq : qualifier ≠ "")
    (h : t.importOf qualifier = some i) : i.boundName = qualifier := by
  obtain ⟨path, -, rfl⟩ := Option.map_eq_some_iff.mp h
  exact Import.boundName_ofQualifier hq path

/-- A set holds the imports that qualifiers need, each of them once. -/
structure Serves (t : ImportTable) (qualifiers : List String) (s : ImportSet) : Prop where
  ascending : s.list.Pairwise fun a b => a.before b
  known : ∀ q ∈ qualifiers, (t.importOf q).isSome
  mem_iff : ∀ i, i ∈ s.list ↔ ∃ q ∈ qualifiers, t.importOf q = some i

theorem serves_nil (t : ImportTable) : Serves t [] .empty where
  ascending := .nil
  known := by simp
  mem_iff := by simp [ImportSet.empty]

/-- A resolved use is served besides those before. -/
theorem Serves.resolveUse {t : ImportTable} {qualifiers : List String} {s s' : ImportSet}
    (hs : Serves t qualifiers s) {u : QualifierUse} (h : t.resolveUse s u = .ok s') :
    Serves t (qualifiers ++ [u.qualifier]) s' := by
  unfold ImportTable.resolveUse at h
  split at h
  · next path hpath =>
    cases h
    have himport : t.importOf u.qualifier = some (.ofQualifier u.qualifier path) := by
      rw [importOf, hpath]
      rfl
    refine ⟨ImportSet.pairwise_insertSorted hs.ascending, ?_, ?_⟩
    · intro q hq
      rcases List.mem_append.mp hq with hq | hq
      · exact hs.known q hq
      · rw [List.mem_singleton.mp hq, himport]
        rfl
    · intro i
      rw [ImportSet.insert, ImportSet.mem_insertSorted, hs.mem_iff]
      simp only [List.mem_append, List.mem_singleton, or_and_right, exists_or, exists_eq_left,
        himport, Option.some.injEq, eq_comm, or_comm]
  · cases h

/-- Resolved uses are served besides those before. -/
theorem Serves.foldlM_resolveUse {t : ImportTable} {qualifiers : List String} {s s' : ImportSet}
    (hs : Serves t qualifiers s) {uses : List QualifierUse}
    (h : uses.foldlM t.resolveUse s = .ok s') :
    Serves t (qualifiers ++ uses.map (·.qualifier)) s' := by
  induction uses generalizing qualifiers s with
  | nil =>
    cases h
    rwa [List.map_nil, List.append_nil]
  | cons u rest ih =>
    obtain ⟨s₁, hu, hrest⟩ := Reading.foldlM_cons_eq_ok.mp h
    have := ih (hs.resolveUse hu) hrest
    rwa [List.append_assoc] at this

/-- The qualifiers in the field types of queries. -/
def qualifiersOf (queries : List Query) : List String :=
  (queries.flatMap QualifierUse.ofQuery).map (·.qualifier)

/-- A name is a qualifier of queries if it qualifies the type of one of their fields. -/
theorem mem_qualifiersOf {queries : List Query} {qualifier : String} :
    qualifier ∈ qualifiersOf queries ↔
      ∃ q ∈ queries, ∃ f ∈ q.params.list ++ q.out.list, qualifier ∈ Qualifier.ofType f.type := by
  simp only [qualifiersOf, QualifierUse.ofQuery, List.map_flatMap, List.map_map, List.mem_flatMap,
    List.mem_map, Function.comp_apply, exists_eq_right]

/-- Resolving yields the imports that the qualifiers of the queries need. -/
theorem serves_of_resolve {t : ImportTable} {queries : List Query} {s : ImportSet}
    (h : t.resolve queries = .ok s) : Serves t (qualifiersOf queries) s :=
  (serves_nil t).foldlM_resolveUse h

namespace Serves

variable {t : ImportTable} {qualifiers : List String} {s : ImportSet}

/-- The imports bind the qualifiers. -/
theorem mem_boundNames (hs : Serves t qualifiers s) (hq : ∀ q ∈ qualifiers, q ≠ "") {name : String} :
    name ∈ s.list.map Import.boundName ↔ name ∈ qualifiers := by
  constructor
  · intro h
    obtain ⟨i, hi, rfl⟩ := List.mem_map.mp h
    obtain ⟨q, hmem, himport⟩ := (hs.mem_iff i).mp hi
    rwa [boundName_importOf (hq q hmem) himport]
  · intro h
    obtain ⟨i, himport⟩ := Option.isSome_iff_exists.mp (hs.known name h)
    refine List.mem_map.mpr ⟨i, (hs.mem_iff i).mpr ⟨name, h, himport⟩, ?_⟩
    exact boundName_importOf (hq name h) himport

/-- The imports bind distinct names. -/
theorem nodup_boundNames (hs : Serves t qualifiers s) (hq : ∀ q ∈ qualifiers, q ≠ "") :
    (s.list.map Import.boundName).Nodup := by
  have distinct : s.list.Nodup := by
    refine hs.ascending.imp ?_
    intro a b hab heq
    rw [heq] at hab
    exact Import.not_before_self b hab
  refine List.Nodup.map_on ?_ distinct
  -- A name gives the qualifier back, and with it the import, since a qualifier has one path.
  intro i hi j hj hname
  obtain ⟨q, hmem, himport⟩ := (hs.mem_iff i).mp hi
  obtain ⟨q', hmem', himport'⟩ := (hs.mem_iff j).mp hj
  rw [boundName_importOf (hq q hmem) himport, boundName_importOf (hq q' hmem') himport'] at hname
  rw [hname, himport'] at himport
  exact (Option.some.inj himport).symm

end Serves

end ImportTable

/-! ## Imports of a file -/

namespace Code

/-- The import that every file of accessors has. -/
def contextImport : Import := { path := "context", localName := "" }

/-- The imports of a file of accessors. -/
def importsOf (imports : ImportSet) : List Import := contextImport :: imports.list

/-- The lines between the parentheses of the import declaration. -/
def importLines (imports : ImportSet) : List String :=
  importLine contextImport :: if imports.isEmpty then [] else "" :: imports.list.map importLine

theorem importLine_ne_empty (i : Import) : importLine i ≠ "" := by
  unfold importLine
  intro h
  have := congrArg String.toList h
  simp at this

/-- The lines that are not empty are those of the imports. -/
theorem filter_importLines (imports : ImportSet) :
    (importLines imports).filter (· ≠ "") = (importsOf imports).map importLine := by
  have all (l : List Import) : (l.map importLine).filter (· ≠ "") = l.map importLine := by
    rw [List.filter_eq_self]
    simp [importLine_ne_empty]
  unfold importLines importsOf ImportSet.isEmpty
  rw [List.filter_cons_of_pos (by simp [importLine_ne_empty]), List.map_cons]
  split
  · next h => rw [List.isEmpty_iff.mp h, List.filter_nil, List.map_nil]
  · rw [List.filter_cons_of_neg (by simp), all]

/-- The file of accessors of some queries has the import declaration. -/
theorem exists_importLines (m : Metadata) (naming : Naming) (file : String) (imports : ImportSet)
    {queries : List Query} (h : queries ≠ []) :
    ∃ before after, ofQueries m naming file imports queries =
      before ++ lines (["", "import ("] ++ importLines imports ++ [")"]) ++ after := by
  have some : (QueryView.ofQueries naming [] queries).isEmpty = false := by
    cases queries with
    | nil => exact absurd rfl h
    | cons q rest => rfl
  unfold ofQueries queriesFile
  rw [some, if_neg Bool.false_ne_true]
  exact ⟨_, _, rfl⟩

end Code

/-! ## Distinct names -/

/-- **When imports are usable together.** The file of some queries that resolve declares the import
of the context and those that were resolved. The resolved imports bind the qualifiers of the field
types, each of them once, so all imports bind distinct names exactly if no field type is qualified
by the name of the context. -/
theorem import_names_distinct_iff {table : ImportTable} {queries : List Query} {imports : ImportSet}
    (hsome : queries ≠ []) (h : table.resolve queries = .ok imports) (m : Metadata)
    (naming : Naming) (file : String) :
    (∃ before after, Code.ofQueries m naming file imports queries =
        before ++ Code.lines (["", "import ("] ++ Code.importLines imports ++ [")"]) ++ after) ∧
      (Code.importLines imports).filter (· ≠ "") =
        (Code.importsOf imports).map Code.importLine ∧
      (∀ name, name ∈ imports.list.map Import.boundName ↔
        name ∈ ImportTable.qualifiersOf queries) ∧
      (imports.list.map Import.boundName).Nodup ∧
      (((Code.importsOf imports).map Import.boundName).Nodup ↔
        ∀ q ∈ queries, ∀ f ∈ q.params.list ++ q.out.list, "context" ∉ Qualifier.ofType f.type) := by
  have serves := ImportTable.serves_of_resolve h
  have nonempty : ∀ name ∈ ImportTable.qualifiersOf queries, name ≠ "" := by
    intro name hname
    obtain ⟨q, -, f, -, hf⟩ := ImportTable.mem_qualifiersOf.mp hname
    exact Qualifier.ne_empty_of_mem_ofType hf
  have bound : ∀ name, name ∈ imports.list.map Import.boundName ↔
      name ∈ ImportTable.qualifiersOf queries := fun _ => serves.mem_boundNames nonempty
  have distinct := serves.nodup_boundNames nonempty
  refine ⟨Code.exists_importLines m naming file imports hsome, Code.filter_importLines imports,
    bound, distinct, ?_⟩
  have context : Code.contextImport.boundName = "context" := by decide +kernel
  rw [Code.importsOf, List.map_cons, List.nodup_cons, context, bound, ImportTable.mem_qualifiersOf]
  simp only [not_exists, not_and, and_iff_left distinct]

/-- A query whose types come from two packages with one name in their paths. -/
def twoUuids : String :=
  "get:\n  type: one\n  sql: x\n  params:\n    a: uuid.UUID\n    b: guid.UUID\n" ++
    "  out:\n    t: \"[]time.Time\"\n"

/-- The packages of `twoUuids`, one of them under another name. -/
def uuidTable : ImportTable :=
  .ofEntries ["github.com/google/uuid", "guid:example.com/v2/uuid"]

/-- Their imports bind distinct names. -/
theorem import_names_distinct_of_two_packages :
    ∃ queries imports, Queries.parse twoUuids = .ok queries ∧ queries.list ≠ [] ∧
      uuidTable.resolve queries.list = .ok imports ∧
      imports.list.map Import.boundName = ["guid", "uuid", "time"] ∧
      ((Code.importsOf imports).map Import.boundName).Nodup := by
  have h : Queries.parse twoUuids = .ok ((Queries.parse twoUuids).toOption.getD .empty) :=
    Grammar.parse_eq_ok (by decide +kernel)
  have hsome : ((Queries.parse twoUuids).toOption.getD .empty).list ≠ [] := by decide +kernel
  have hresolve : uuidTable.resolve ((Queries.parse twoUuids).toOption.getD .empty).list =
      .ok ⟨[⟨"example.com/v2/uuid", "guid"⟩, ⟨"github.com/google/uuid", ""⟩, ⟨"time", ""⟩]⟩ := by
    decide +kernel
  obtain ⟨-, -, -, -, distinct⟩ :=
    import_names_distinct_iff hsome hresolve { package := "db" } .standard "a.yaml"
  exact ⟨_, _, h, hsome, hresolve, by decide +kernel, distinct.mpr (by decide +kernel)⟩

/-- A query that takes a context of its own. -/
def ownContext : String := "a:\n  type: exec\n  sql: x\n  params:\n    c: context.Context\n"

/-- Its file imports the context twice. -/
theorem import_names_not_distinct_of_own_context :
    ¬ ∀ (entries : List String) (source : String) (queries : Queries) (imports : ImportSet),
      Queries.parse source = .ok queries → queries.list ≠ [] →
        (ImportTable.ofEntries entries).resolve queries.list = .ok imports →
          ((Code.importsOf imports).map Import.boundName).Nodup := by
  intro distinct
  have h : Queries.parse ownContext = .ok ((Queries.parse ownContext).toOption.getD .empty) :=
    Grammar.parse_eq_ok (by decide +kernel)
  have := distinct ["context"] _ _ ⟨[⟨"context", ""⟩]⟩ h (by decide +kernel) (by decide +kernel)
  revert this
  decide +kernel

end QueryBook
