import QueryBook.Proofs.ReadNodes
import QueryBook.Proofs.Kept

/-!
# Queries that were read

What is read from a source is sound: names are not empty, types are trimmed, comments are made of
tidy lines, anchors have names and SQL is not blank.
-/

namespace QueryBook

open Grammar

variable {n : Node} {p : Node × Node}

/-! ## Parts of a query -/

/-- A text that was trimmed is trimmed. -/
theorem Text.trim_trim (text : String) : Text.trim (Text.trim text) = Text.trim text := by
  rw [Text.trim, Text.trim, String.toList_ofList, (isTrimmed_trimChars _).trimChars_eq]

/-- The field of a pair that was read is sound. -/
theorem isSound_fieldOf (hname : p.1.IsRead) (hvalue : p.2.IsRead) (htext : p.1.text ≠ "")
    (htype : IsFieldType p.2) : (fieldOf p).IsSound where
  name := htext
  type := ⟨Text.trim_trim _, htype.notBlank⟩
  comment := Comment.isTidy_ofNodes (by simp [hname, hvalue])

/-- The block of a pair that was read is sound. -/
theorem isSound_commentedBlock (hkey : p.1.IsRead) (hvalue : p.2.IsRead) (hblock : IsBlock p.2) :
    (commentedBlock p).IsSound where
  fields := by
    intro f hf
    obtain ⟨p', hp', rfl⟩ := List.mem_map.mp hf
    have hread := hvalue.members p' hp'
    exact isSound_fieldOf hread.1 hread.2 (hblock.names.named p' hp') (hblock.types p' hp')
  distinct := by
    show ((p.2.members.map fieldOf).map (·.name)).Nodup
    rw [map_name_map_fieldOf]
    exact hblock.names.distinct
  comment := Comment.isTidy_ofNodes (by simpa using hkey)
  anchor := hvalue.isName_anchor
  copy := hvalue.anchor_eq_none
  copied := hvalue.isName_aliasOf

theorem isSound_empty : Fields.IsSound {} where
  fields := nofun
  distinct := List.nodup_nil
  comment := Comment.isTidy_empty
  anchor := nofun
  copy := fun _ => rfl
  copied := nofun

/-- The block under a key of a definition is sound. -/
theorem isSound_blockUnder {key : String} {pairs : List (Node × Node)}
    (hpairs : ∀ p ∈ pairs, p.1.IsRead ∧ p.2.IsRead)
    (hblock : ∀ p ∈ pairs, p.1.text = key → IsBlock p.2) : (blockUnder key pairs).IsSound := by
  unfold blockUnder
  cases hlast : lastUnder key pairs with
  | none => exact isSound_empty
  | some p =>
    obtain ⟨hp, htext⟩ := mem_of_lastUnder hlast
    exact isSound_commentedBlock (hpairs p hp).1 (hpairs p hp).2 (hblock p hp htext)

/-- The query of a pair that was read is sound. -/
theorem isSound_of_describes {q : Query} (hname : p.1.IsRead) (hvalue : p.2.IsRead)
    (htext : p.1.text ≠ "") (hdefinition : IsDefinition p.2) (h : Describes p q) : q.IsSound where
  name := by rw [h.name]; exact htext
  comment := by rw [h.comment]; exact Comment.isTidy_ofNodes (by simpa using hname)
  sql := by
    obtain ⟨p', hlast, hsql⟩ := Option.map_eq_some_iff.mp h.sql
    obtain ⟨hp', hkey⟩ := mem_of_lastUnder hlast
    obtain ⟨c, hc, hblank⟩ := ((hdefinition.entries p' hp').sql hkey).notBlank
    rw [← hsql]
    exact List.all_eq_false.mpr ⟨c, hc, by simp [hblank]⟩
  params := by
    rw [h.params]
    exact isSound_blockUnder hvalue.members fun p' hp' => (hdefinition.entries p' hp').params
  out := by
    rw [h.out]
    exact isSound_blockUnder hvalue.members fun p' hp' => (hdefinition.entries p' hp').out
  fits := by rw [h.out]; exact hdefinition.shape _ h.type

/-! ## Queries of a source -/

/-- The queries of pairs that were read are sound. -/
theorem isSound_of_forall₂_describes {pairs : List (Node × Node)} {qs : List Query}
    (h : List.Forall₂ Describes pairs qs) (hpairs : ∀ p ∈ pairs, p.1.IsRead ∧ p.2.IsRead)
    (hnames : ∀ p ∈ pairs, p.1.text ≠ "") (hdefinitions : ∀ p ∈ pairs, IsDefinition p.2) :
    ∀ q ∈ qs, q.IsSound := by
  induction h with
  | nil => exact nofun
  | cons hp _ ih =>
    rw [List.forall_mem_cons] at hpairs hnames hdefinitions
    exact List.forall_mem_cons.mpr
      ⟨isSound_of_describes hpairs.1.1 hpairs.1.2 hnames.1 hdefinitions.1 hp,
        ih hpairs.2 hnames.2 hdefinitions.2⟩

/-- The queries of a source are sound. -/
theorem Queries.isSound_of_parse [Diagnosis] {source : String} {qs : Queries}
    (h : Queries.parse source = .ok qs) : ∀ q ∈ qs.list, q.IsSound := by
  obtain ⟨root?, hread, hqs⟩ := Reading.bind_eq_ok.mp h
  cases root? with
  | none =>
    cases hqs
    exact nofun
  | some root =>
    obtain ⟨hdocument, hdescribes⟩ := queriesOfNode_eq_ok.mp hqs
    exact isSound_of_forall₂_describes hdescribes (Document.isRead_read hread).members
      hdocument.names.named hdocument.definitions

end QueryBook
