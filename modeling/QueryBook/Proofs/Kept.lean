import QueryBook.Proofs.OutlineMargin
import QueryBook.Proofs.Grammar

/-!
# What a canonical document keeps

Queries are compared without their positions. A canonical document keeps most of what they are made
of, but not all: `Queries.Kept` says of queries that it keeps them.
-/

namespace QueryBook

/-! ## Without positions -/

/-- A field without its position. -/
def Field.unplaced (f : Field) : Field := { f with position := .unknown }

/-- A block of fields without positions. -/
def Fields.unplaced (fs : Fields) : Fields :=
  { fs with list := fs.list.map (·.unplaced), position := .unknown }

/-- SQL without its position. -/
def Sql.unplaced (s : Sql) : Sql := { s with position := .unknown }

/-- A query without positions. -/
def Query.unplaced (q : Query) : Query :=
  { q with sql := q.sql.unplaced, params := q.params.unplaced, out := q.out.unplaced,
           position := .unknown }

/-- Queries without positions. -/
def Queries.unplaced (qs : Queries) : Queries := ⟨qs.list.map (·.unplaced)⟩

/-- Positions do not matter to the canonical document. -/
theorem Queries.toYaml_unplaced (qs : Queries) : qs.unplaced.toYaml = qs.toYaml := by
  have hfield (f : Field) : Canonical.fieldLines f.unplaced = Canonical.fieldLines f := rfl
  have hfields (key : String) (fs : Fields) :
      Canonical.fieldsLines key fs.unplaced = Canonical.fieldsLines key fs := by
    have hempty : fs.unplaced.isEmpty = fs.isEmpty := by
      simp [Fields.isEmpty, Fields.unplaced]
    have hlist : fs.unplaced.list.map Canonical.fieldLines = fs.list.map Canonical.fieldLines := by
      simp [Fields.unplaced, Function.comp_def, hfield]
    unfold Canonical.fieldsLines
    rw [hempty, hlist]
    rfl
  have hquery (q : Query) : Canonical.queryLines q.unplaced = Canonical.queryLines q := by
    unfold Canonical.queryLines
    rw [Query.unplaced]
    dsimp only
    rw [hfields, hfields]
    rfl
  simp [toYaml, Queries.unplaced, Function.comp_def, hquery]

/-- Queries that are equal without positions have one canonical document. -/
theorem Queries.toYaml_eq_of_unplaced_eq {qs qs' : Queries} (h : qs.unplaced = qs'.unplaced) :
    qs.toYaml = qs'.toYaml := by
  rw [← toYaml_unplaced qs, h, toYaml_unplaced]

/-! ## Queries that were read -/

/-- What is known of a field that was read. -/
structure Field.IsSound (f : Field) : Prop where
  name : f.name ≠ ""
  type : Text.trim f.type = f.type ∧ f.type ≠ ""
  comment : f.comment.IsTidy

/-- What is known of a block that was read. -/
structure Fields.IsSound (fs : Fields) : Prop where
  fields : ∀ f ∈ fs.list, f.IsSound
  distinct : (fs.list.map (·.name)).Nodup
  comment : fs.comment.IsTidy
  anchor : ∀ name ∈ fs.anchor, IsName name
  /-- A copy defines no anchor itself. -/
  copy : fs.copyOf ≠ none → fs.anchor = none
  copied : ∀ name ∈ fs.copyOf, IsName name

/-- What is known of a query that was read. -/
structure Query.IsSound (q : Query) : Prop where
  name : q.name ≠ ""
  comment : q.comment.IsTidy
  sql : Text.isAllBlank q.sql.text = false
  params : q.params.IsSound
  out : q.out.IsSound
  fits : Grammar.FitsType q.type q.out.list

/-! ## Comments -/

/-- Whether nothing in a text is taken for a comment behind it. -/
def ShowsNoComment (text : List Char) : Prop := Margin.findMarker none ' ' text = []

instance (text : List Char) : Decidable (ShowsNoComment text) :=
  inferInstanceAs (Decidable (_ = _))

/-- A field keeps its comment, or that it has none: nothing in its line is taken for one, from its
name or from its type on. -/
def Field.KeepsComment (f : Field) : Prop :=
  f.comment = .empty →
    ShowsNoComment ((Canonical.scalar f.name).toList ++ ':' :: ' ' :: (Canonical.scalar f.type).toList) ∧
      ShowsNoComment (Canonical.scalar f.type).toList

instance (f : Field) : Decidable f.KeepsComment := inferInstanceAs (Decidable (_ → _ ∧ _))

/-- A query keeps its comment, or that it has none. -/
def Query.KeepsComment (q : Query) : Prop :=
  q.comment = .empty → ShowsNoComment ((Canonical.scalar q.name).toList ++ [':'])

instance (q : Query) : Decidable q.KeepsComment := inferInstanceAs (Decidable (_ → _))

/-! ## Blocks -/

/-- The fields that the anchors so far stand for, newest first. -/
abbrev Anchors := List (String × List Field)

namespace Fields

/-- What stands behind the `:` of the key of a block. -/
def behindKey (fs : Fields) : List Char :=
  match fs.copyOf with
  | some name => (Leaf.reference name).inline
  | none => anchorText fs.anchor

/-- A block under a key keeps its comment, or that it has none. -/
def KeepsComment (key : String) (fs : Fields) : Prop :=
  fs.comment = .empty → ShowsNoComment (key.toList ++ ':' :: fs.behindKey)

instance (key : String) (fs : Fields) : Decidable (fs.KeepsComment key) :=
  inferInstanceAs (Decidable (_ → _))

/-- Whether a block of fields under a key is kept: an empty one is as if it were not there, a copy
is one of what its anchor stands for by then, and the fields of any other keep their comments. -/
def Kept (key : String) (anchors : Anchors) (fs : Fields) : Prop :=
  if fs.isEmpty then fs.unplaced = {}
  else
    fs.KeepsComment key ∧
      match fs.copyOf with
      | some name => anchors.lookup name = some (fs.list.map (·.unplaced))
      | none => ∀ f ∈ fs.list, f.KeepsComment

variable {key : String} {anchors : Anchors} {fs : Fields}

/-- An empty block is kept if it is as if it were not there. -/
theorem kept_of_isEmpty (hempty : fs.isEmpty = true) :
    fs.Kept key anchors ↔ fs.unplaced = {} := by
  rw [Kept, if_pos hempty]

/-- A copy is kept if its anchor stands for its fields. -/
theorem kept_of_copy (hempty : fs.isEmpty = false) {name : String} (hcopy : fs.copyOf = some name) :
    fs.Kept key anchors ↔
      fs.KeepsComment key ∧ anchors.lookup name = some (fs.list.map (·.unplaced)) := by
  rw [Kept, if_neg (by simp [hempty]), hcopy]

/-- Any other block is kept if its fields keep their comments. -/
theorem kept_of_plain (hempty : fs.isEmpty = false) (hcopy : fs.copyOf = none) :
    fs.Kept key anchors ↔ fs.KeepsComment key ∧ ∀ f ∈ fs.list, f.KeepsComment := by
  rw [Kept, if_neg (by simp [hempty]), hcopy]

instance : Decidable (fs.Kept key anchors) :=
  match hempty : fs.isEmpty, hcopy : fs.copyOf with
  | true, _ => decidable_of_iff _ (kept_of_isEmpty hempty).symm
  | false, some _ => decidable_of_iff _ (kept_of_copy hempty hcopy).symm
  | false, none => decidable_of_iff _ (kept_of_plain hempty hcopy).symm

/-- The name that a written block is an anchor for. -/
def defines (fs : Fields) : Option String :=
  if fs.isEmpty || fs.copyOf.isSome then none else fs.anchor

/-- The anchors after a block. -/
def define (anchors : Anchors) (fs : Fields) : Anchors :=
  match fs.defines with
  | some name => (name, fs.list.map (·.unplaced)) :: anchors
  | none => anchors

end Fields

/-! ## Queries -/

/-- SQL is kept before empty lines if these do not count as part of it. -/
def Sql.Kept (blanks : Nat) (s : Sql) : Prop :=
  s.style = .plain ∨ blanks = 0 ∨ Sql.trailing s.text.toList < 2

instance (blanks : Nat) (s : Sql) : Decidable (s.Kept blanks) :=
  inferInstanceAs (Decidable (_ ∨ _ ∨ _))

namespace Query

/-- The empty lines behind the SQL of a query, `blanks` of them being behind the query. -/
def blanksAfterSql (blanks : Nat) (q : Query) : Nat :=
  if q.params.isEmpty && q.out.isEmpty then blanks else 0

/-- Whether a query is kept before empty lines, with the anchors so far. -/
structure Kept (anchors : Anchors) (blanks : Nat) (q : Query) : Prop where
  comment : q.KeepsComment
  sql : q.sql.Kept (q.blanksAfterSql blanks)
  params : q.params.Kept "params" anchors
  out : q.out.Kept "out" (q.params.define anchors)

instance (anchors : Anchors) (blanks : Nat) (q : Query) : Decidable (q.Kept anchors blanks) :=
  decidable_of_iff (q.KeepsComment ∧ q.sql.Kept (q.blanksAfterSql blanks) ∧
      q.params.Kept "params" anchors ∧ q.out.Kept "out" (q.params.define anchors))
    ⟨fun ⟨a, b, c, d⟩ => ⟨a, b, c, d⟩, fun ⟨a, b, c, d⟩ => ⟨a, b, c, d⟩⟩

/-- The anchors after a query. -/
def define (anchors : Anchors) (q : Query) : Anchors := q.out.define (q.params.define anchors)

end Query

/-- Whether queries are kept, an empty line between them, with the anchors so far. -/
def Queries.KeptFrom (anchors : Anchors) : List Query → Prop
  | [] => True
  | q :: qs => q.Kept anchors (if qs.isEmpty then 0 else 1) ∧ KeptFrom (q.define anchors) qs

instance decidableKeptFrom : ∀ (anchors : Anchors) (qs : List Query),
    Decidable (Queries.KeptFrom anchors qs)
  | _, [] => inferInstanceAs (Decidable True)
  | anchors, q :: qs =>
    have := decidableKeptFrom (q.define anchors) qs
    inferInstanceAs (Decidable (_ ∧ _))

/-- Whether the canonical document of queries keeps them. -/
def Queries.Kept (qs : Queries) : Prop := KeptFrom [] qs.list

instance (qs : Queries) : Decidable qs.Kept := inferInstanceAs (Decidable (Queries.KeptFrom _ _))

end QueryBook
