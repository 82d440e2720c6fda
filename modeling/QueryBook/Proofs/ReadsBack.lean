import QueryBook.Proofs.ReadQueries
import QueryBook.Proofs.RoundTrip

/-!
# Canonical documents are read back

For every source that is read, its canonical document is read as the same queries exactly if it
keeps them. Comments and SQL are written as they are, which the reader can only follow as long as
they hold no character that ends a line or the source; names can be too long for a key or look like
the end of the document.
-/

namespace QueryBook

open Yaml

/-! ## Legible queries -/

/-- Whether a text holds no character that ends a line or the source, line feeds aside. -/
def IsUnbroken (text : String) : Prop := '\r' ∉ text.toList ∧ '\x00' ∉ text.toList

instance (text : String) : Decidable (IsUnbroken text) := inferInstanceAs (Decidable (_ ∧ _))

/-- Whether a comment can be read as it is written. -/
def Comment.IsLegible (c : Comment) : Prop := ∀ line ∈ c.lines, IsUnbroken line

instance (c : Comment) : Decidable c.IsLegible := inferInstanceAs (Decidable (∀ _ ∈ _, _))

/-- Whether a name can be read as it is written: a key is not longer than the reader looks for it.
-/
def IsKey (name : String) : Prop := (Canonical.scalar name).toList.length ≤ 1024

instance (name : String) : Decidable (IsKey name) := inferInstanceAs (Decidable (_ ≤ _))

/-- Whether a field can be read as it is written. -/
structure Field.IsLegible (f : Field) : Prop where
  name : IsKey f.name
  comment : f.comment.IsLegible

instance (f : Field) : Decidable f.IsLegible :=
  decidable_of_iff (IsKey f.name ∧ f.comment.IsLegible) ⟨fun h => ⟨h.1, h.2⟩, fun h => ⟨h.1, h.2⟩⟩

/-- Whether a block can be read as it is written; of an empty one nothing is written. -/
structure Fields.IsLegible (fs : Fields) : Prop where
  comment : fs.isEmpty = false → fs.comment.IsLegible
  fields : fs.copyOf = none → ∀ f ∈ fs.list, f.IsLegible

instance (fs : Fields) : Decidable fs.IsLegible :=
  decidable_of_iff ((fs.isEmpty = false → fs.comment.IsLegible) ∧
      (fs.copyOf = none → ∀ f ∈ fs.list, f.IsLegible))
    ⟨fun h => ⟨h.1, h.2⟩, fun h => ⟨h.1, h.2⟩⟩

/-- Whether a query can be read as it is written. -/
structure Query.IsLegible (q : Query) : Prop where
  name : IsKey q.name
  /-- The name is not written as the end of the document. -/
  document : endsDocument q.name = false
  comment : q.comment.IsLegible
  sql : q.sql.style = .literal → IsUnbroken q.sql.text
  params : q.params.IsLegible
  out : q.out.IsLegible

instance (q : Query) : Decidable q.IsLegible :=
  decidable_of_iff (IsKey q.name ∧ endsDocument q.name = false ∧ q.comment.IsLegible ∧
      (q.sql.style = .literal → IsUnbroken q.sql.text) ∧ q.params.IsLegible ∧ q.out.IsLegible)
    ⟨fun ⟨a, b, c, d, e, f⟩ => ⟨a, b, c, d, e, f⟩, fun ⟨a, b, c, d, e, f⟩ => ⟨a, b, c, d, e, f⟩⟩

/-- Whether queries can be read as they are written. -/
def Queries.IsLegible (qs : Queries) : Prop := ∀ q ∈ qs.list, q.IsLegible

instance (qs : Queries) : Decidable qs.IsLegible := inferInstanceAs (Decidable (∀ _ ∈ _, _))

namespace Outline

/-- The comment of a legible heading stands in its lines. -/
theorem inLine_comment {c : Comment} (htidy : c.IsTidy) (hc : c.IsLegible) :
    ∀ line ∈ c.lines, ∀ ch ∈ line.toList, InLine ch := by
  intro line hline ch hch
  obtain ⟨hreturn, hnul⟩ := hc line hline
  have hfeed : ch ≠ '\n' := by
    rintro rfl
    exact (htidy line hline).1 hch
  have hreturn' : ch ≠ '\r' := by
    rintro rfl
    exact hreturn hch
  refine ⟨by simp [isBreak, hfeed, hreturn'], ?_⟩
  rintro rfl
  exact hnul hch

/-- SQL that is not blank can be read as it is written, unless its block holds what ends a line. -/
theorem legible_ofSql {s : Sql} (hblank : Text.isAllBlank s.text = false)
    (h : s.style = .literal → IsUnbroken s.text) : (ofSql s).Legible := by
  unfold ofSql
  cases hstyle : s.style with
  | plain => trivial
  | literal =>
    obtain ⟨hreturn, hnul⟩ := h hstyle
    refine ⟨fun c hc => ⟨?_, ?_⟩, hblank⟩
    · rintro rfl
      exact hreturn hc
    · rintro rfl
      exact hnul hc

/-- The outline of legible fields is legible. -/
theorem legible_ofFields {fs : List Field} (hfs : ∀ f ∈ fs, f.IsSound) (h : ∀ f ∈ fs, f.IsLegible) :
    (ofFields fs).Legible 4 := by
  induction fs with
  | nil => trivial
  | cons f fs ih =>
    rw [List.forall_mem_cons] at hfs h
    exact ⟨⟨inLine_comment hfs.1.comment h.1.comment, h.1.name, nofun⟩, trivial, ih hfs.2 h.2⟩

/-- The outline of a legible block and what follows it is legible. -/
theorem legible_ofBlock {key : String} (hkey : IsKey key) {fs : Fields} (hfs : fs.IsSound)
    (h : fs.IsLegible) {rest : Outline} (hrest : rest.Legible 2) :
    (ofBlock key fs rest).Legible 2 := by
  unfold ofBlock
  cases hempty : fs.isEmpty with
  | true => exact hrest
  | false =>
    have hheading : (Heading.mk 0 fs.comment key).Legible 2 :=
      ⟨inLine_comment hfs.comment (h.comment hempty), hkey, nofun⟩
    have hne : ofFields fs.list ≠ done := by
      intro hdone
      cases hlist : fs.list with
      | nil => simp [Fields.isEmpty, hlist] at hempty
      | cons f list =>
        rw [hlist] at hdone
        cases hdone
    cases hcopy : fs.copyOf with
    | some name => exact ⟨hheading, hfs.copied name hcopy, hrest⟩
    | none =>
      exact ⟨hheading, hfs.anchor, hne, legible_ofFields hfs.fields (h.fields hcopy), hrest⟩

/-- The outline of legible queries is legible. -/
theorem legible_ofQueries {qs : List Query} (hqs : ∀ q ∈ qs, q.IsSound) (h : ∀ q ∈ qs, q.IsLegible)
    (blanks : Nat) : (ofQueries blanks qs).Legible 0 := by
  have hheading {key : String} (hkey : IsKey key) : (Heading.mk 0 .empty key).Legible 2 :=
    ⟨nofun, hkey, nofun⟩
  induction qs generalizing blanks with
  | nil => trivial
  | cons q qs ih =>
    rw [List.forall_mem_cons] at hqs h
    refine ⟨⟨inLine_comment hqs.1.comment h.1.comment, h.1.name, fun _ => h.1.document⟩, nofun, nofun,
      ⟨hheading (by decide +kernel), trivial, hheading (by decide +kernel),
        legible_ofSql hqs.1.sql h.1.sql, ?_⟩, ih hqs.2 h.2 1⟩
    exact legible_ofBlock (by decide +kernel) hqs.1.params h.1.params
      (legible_ofBlock (by decide +kernel) hqs.1.out h.1.out trivial)

end Outline

/-! ## The round trip -/

/-- **What is read back.** The queries of a source whose canonical document can be read are read
back from it, positions aside, and written again as the same text, exactly if the document keeps
them. -/
theorem Queries.reads_back_iff [Diagnosis] {source : String} {qs : Queries}
    (hparse : Queries.parse source = .ok qs) (hlegible : qs.IsLegible) :
    (∃ qs', Queries.parse qs.toYaml = .ok qs' ∧ qs'.unplaced = qs.unplaced ∧
      qs'.toYaml = qs.toYaml) ↔ qs.Kept := by
  have hsound := isSound_of_parse hparse
  rw [← readsBack_iff_kept hsound (Grammar.nodup_names_of_parse hparse)
    (Outline.legible_ofQueries hsound hlegible 0)]
  constructor
  · rintro ⟨qs', hqs', heq, -⟩
    exact ⟨qs', hqs', heq⟩
  · rintro ⟨qs', hqs', heq⟩
    exact ⟨qs', hqs', heq, toYaml_eq_of_unplaced_eq heq⟩

namespace Queries

/-- Two queries with comments, a block that both use and SQL that ends with an empty line. -/
def sharedParams : String :=
  "# Users\nget:\n  sql: |+\n    select *\n      from u\n\n  params: &key\n    id: int # key\n  out: *key\n" ++
    "put:\n  type: exec\n  sql: 'x: y'\n  params: *key\n"

/-- They are read back. -/
theorem reads_back_of_shared_params :
    Queries.parse sharedParams = .ok ((Queries.parse sharedParams).toOption.getD .empty) ∧
      ∃ qs', Queries.parse ((Queries.parse sharedParams).toOption.getD .empty).toYaml = .ok qs' ∧
        qs'.unplaced = ((Queries.parse sharedParams).toOption.getD .empty).unplaced ∧
        qs'.toYaml = ((Queries.parse sharedParams).toOption.getD .empty).toYaml := by
  have h : Queries.parse sharedParams = .ok ((Queries.parse sharedParams).toOption.getD .empty) :=
    Grammar.parse_eq_ok (by decide +kernel)
  exact ⟨h, (reads_back_iff h (by decide +kernel)).mpr (by decide +kernel)⟩

/-- A query whose SQL ends with an empty line, and another behind it. -/
def endsWithEmptyLine : String :=
  "a:\n  type: exec\n  sql: |+\n    x\n\nb:\n  type: exec\n  sql: y\n"

/-- The empty line between the two becomes a part of the SQL. -/
theorem not_read_back_of_empty_line :
    ¬ ∀ (source : String) (qs : Queries), Queries.parse source = .ok qs →
      ∃ qs', Queries.parse qs.toYaml = .ok qs' ∧ qs'.unplaced = qs.unplaced ∧
        qs'.toYaml = qs.toYaml := by
  intro h
  obtain ⟨qs', hparse, heq, -⟩ :=
    h endsWithEmptyLine _ (Grammar.parse_eq_ok (by decide +kernel))
  have hread : qs' = (Queries.parse ((Queries.parse endsWithEmptyLine).toOption.getD
      .empty).toYaml).toOption.getD .empty := by
    rw [hparse]
    rfl
  rw [hread] at heq
  revert heq
  decide +kernel

end Queries

end QueryBook
