import QueryBook.Proofs.ReadNodes
import QueryBook.Proofs.FieldViews
import Mathlib.Data.List.Forall2

/-!
# Aliases and their targets

An alias means its target. Putting the targets of all aliases in their places changes neither
whether a tree is accepted nor what it says, as each value is read with its aliases followed. Two
things are read from the alias itself. One is the name that a block shares with others: it comes from
the anchor of the target, which the block has itself once the target is in its place. The other is
the comment of a type. `alias_means_target` says this of all trees that are read.
-/

namespace QueryBook

namespace Node

/-! ## Substitution -/

mutual

/-- The tree with the targets of aliases in their places. Keys of mappings stay as they are. -/
def substituted : Node → Node
  | scalar info value style => scalar info value style
  | mapping info pairs => mapping info (substitutedPairs pairs)
  | sequence info items => sequence info (substitutedItems items)
  | reference _ target => target.substituted

/-- The items of a sequence with the targets of aliases in their places. -/
def substitutedItems : List Node → List Node
  | [] => []
  | n :: rest => n.substituted :: substitutedItems rest

/-- The pairs of a mapping with the targets of aliases in the places of values. -/
def substitutedPairs : List (Node × Node) → List (Node × Node)
  | [] => []
  | (key, value) :: rest => (key, value.substituted) :: substitutedPairs rest

end

/-- Whether a tree holds no aliases, but for keys of mappings. -/
inductive IsDirect : Node → Prop
  | scalar {info : NodeInfo} {value : String} {style : ScalarStyle} :
      IsDirect (.scalar info value style)
  | mapping {info : NodeInfo} {pairs : List (Node × Node)} (hvalues : ∀ p ∈ pairs, IsDirect p.2) :
      IsDirect (.mapping info pairs)
  | sequence {info : NodeInfo} {items : List Node} (hitems : ∀ n ∈ items, IsDirect n) :
      IsDirect (.sequence info items)

mutual

/-- No alias is left. -/
theorem isDirect_substituted : ∀ n : Node, n.substituted.IsDirect
  | scalar .. => .scalar
  | mapping _ pairs => .mapping (isDirect_substitutedPairs pairs)
  | sequence _ items => .sequence (isDirect_substitutedItems items)
  | reference _ target => by rw [substituted]; exact isDirect_substituted target

theorem isDirect_substitutedItems : ∀ items : List Node, ∀ n ∈ substitutedItems items, n.IsDirect
  | [] => nofun
  | n :: rest =>
    List.forall_mem_cons.mpr ⟨isDirect_substituted n, isDirect_substitutedItems rest⟩

theorem isDirect_substitutedPairs :
    ∀ pairs : List (Node × Node), ∀ p ∈ substitutedPairs pairs, p.2.IsDirect
  | [] => nofun
  | (_, value) :: rest =>
    List.forall_mem_cons.mpr ⟨isDirect_substituted value, isDirect_substitutedPairs rest⟩

end

/-- A pair of a mapping with the targets of aliases in its value. -/
def substitutedPair (p : Node × Node) : Node × Node := (p.1, p.2.substituted)

theorem substitutedPairs_eq_map (pairs : List (Node × Node)) :
    substitutedPairs pairs = pairs.map substitutedPair := by
  induction pairs with
  | nil => rfl
  | cons p rest ih => rw [substitutedPairs, ih, List.map_cons, substitutedPair]

/-- A node that is no alias is where following aliases ends. -/
theorem resolve_eq_self {n : Node} (h : n.shape ≠ .reference) : n.resolve = n := by
  cases n with
  | scalar | mapping | sequence => rfl
  | reference => exact absurd rfl h

/-- It refers to no anchor. -/
theorem aliasOf_eq_none {n : Node} (h : n.shape ≠ .reference) : n.aliasOf = none := by
  cases n with
  | scalar | mapping | sequence => rfl
  | reference => exact absurd rfl h

@[simp] theorem shape_substituted : ∀ n : Node, n.substituted.shape = n.resolve.shape
  | scalar .. | mapping .. | sequence .. => rfl
  | reference _ target => by rw [resolve, substituted]; exact shape_substituted target

@[simp] theorem info_substituted : ∀ n : Node, n.substituted.info = n.resolve.info
  | scalar .. | mapping .. | sequence .. => rfl
  | reference _ target => by rw [resolve, substituted]; exact info_substituted target

@[simp] theorem text_substituted : ∀ n : Node, n.substituted.text = n.resolve.text
  | scalar .. => rfl
  | mapping .. => rfl
  | sequence .. => rfl
  | reference _ target => by rw [resolve, substituted]; exact text_substituted target

theorem pairs?_substituted : ∀ n : Node,
    n.substituted.pairs? = n.resolve.pairs?.map (·.map substitutedPair)
  | scalar .. => rfl
  | mapping _ pairs => congrArg some (substitutedPairs_eq_map pairs)
  | sequence .. => rfl
  | reference _ target => by rw [resolve, substituted]; exact pairs?_substituted target

theorem shape_substituted_ne_reference (n : Node) : n.substituted.shape ≠ .reference := by
  rw [shape_substituted]
  exact shape_resolve_ne_reference n

@[simp] theorem resolve_substituted (n : Node) : n.substituted.resolve = n.substituted :=
  resolve_eq_self n.shape_substituted_ne_reference

@[simp] theorem position_substituted (n : Node) : n.substituted.position = n.resolve.position := by
  rw [position, info_substituted, position]

@[simp] theorem aliasOf_substituted (n : Node) : n.substituted.aliasOf = none :=
  aliasOf_eq_none n.shape_substituted_ne_reference

/-- The pairs of a mapping have targets in the places of their values. -/
theorem members_substituted (n : Node) : n.substituted.members = n.members.map substitutedPair := by
  unfold members
  rw [resolve_substituted, pairs?_substituted]
  cases n.resolve.pairs? <;> rfl

/-- The anchor of a value in its place is the one that its alias referred to. -/
theorem IsRead.anchor_substituted {n : Node} (h : n.IsRead) :
    n.substituted.anchor = n.aliasOf.or n.anchor := by
  rw [anchor, info_substituted]
  cases h with
  | scalar | mapping | sequence => rfl
  | reference _ hanchor hdirect _ =>
    rw [Node.resolve, resolve_eq_self hdirect, aliasOf, anchor, anchor, Node.info, hanchor,
      Option.or_none]

end Node

/-! ## Acceptance -/

namespace Grammar

open Node (substitutedPair)

variable {n : Node} {p : Node × Node} {pairs : List (Node × Node)}

@[simp] theorem keyTexts_substituted : keyTexts (pairs.map substitutedPair) = keyTexts pairs := by
  rw [keyTexts, List.map_map]
  rfl

/-- The pair that counts under a key still counts. -/
theorem lastUnder_substituted (key : String) (pairs : List (Node × Node)) :
    lastUnder key (pairs.map substitutedPair) = (lastUnder key pairs).map substitutedPair := by
  unfold lastUnder pairsUnder
  rw [List.filter_map, List.getLast?_map]
  rfl

theorem HasNames.substituted (h : HasNames pairs) : HasNames (pairs.map substitutedPair) where
  named := List.forall_mem_map.mpr h.named
  distinct := by
    rw [keyTexts_substituted]
    exact h.distinct

theorem IsFieldType.substituted (h : IsFieldType n) : IsFieldType n.substituted where
  scalar := by simpa using h.scalar
  notBlank := by simpa using h.notBlank

theorem IsSql.substituted (h : IsSql n) : IsSql n.substituted where
  scalar := by simpa using h.scalar
  notBlank := by simpa using h.notBlank

theorem IsBlock.substituted (h : IsBlock n) : IsBlock n.substituted where
  mapping := by simpa using h.mapping
  names := by
    rw [Node.members_substituted]
    exact h.names.substituted
  types := by
    rw [Node.members_substituted]
    exact List.forall_mem_map.mpr fun p hp => (h.types p hp).substituted

theorem IsEntry.substituted (h : IsEntry p) : IsEntry (substitutedPair p) where
  key := h.key
  type := fun hkey => by simpa [substitutedPair] using h.type hkey
  sql := fun hkey => (h.sql hkey).substituted
  params := fun hkey => (h.params hkey).substituted
  out := fun hkey => (h.out hkey).substituted

/-- The type of the query stays. -/
theorem isTypeUnder_substituted {type : QueryType} :
    IsTypeUnder (pairs.map substitutedPair) type ↔ IsTypeUnder pairs type := by
  unfold IsTypeUnder
  rw [lastUnder_substituted]
  cases lastUnder "type" pairs with
  | none => rfl
  | some p => simp [substitutedPair]

/-- Which result fields fit a type depends on their types only. -/
theorem FitsType.of_types {type : QueryType} {out out' : List Field} (h : FitsType type out)
    (htypes : out.map (·.type) = out'.map (·.type)) : FitsType type out' where
  present := by
    rw [← h.present, Ne, Ne, ← List.map_eq_nil_iff (f := (·.type)), ← htypes, List.map_eq_nil_iff]
  values := by
    intro f hf
    have hmem : f.type ∈ out.map (·.type) := by
      rw [htypes]
      exact List.mem_map_of_mem hf
    obtain ⟨f', hf', htype⟩ := List.mem_map.mp hmem
    rw [← htype]
    exact h.values f' hf'

end Grammar

/-! ## Equality but for comments -/

/-- Whether two lists are equal once their elements are bare, and equal as they are but for some
places. -/
structure EqualBut {α : Type} (bare : α → α) (places : Nat → Prop) (xs ys : List α) : Prop where
  bared : xs.map bare = ys.map bare
  others : ∀ i, ¬ places i → xs[i]? = ys[i]?

namespace EqualBut

variable {α β : Type} {bare : α → α} {places : Nat → Prop} {xs ys : List α}

/-- What does not need the missing part is equal. -/
theorem map_eq (h : EqualBut bare places xs ys) {g : α → β} (hg : ∀ x, g (bare x) = g x) :
    xs.map g = ys.map g := by
  have hcomp : g ∘ bare = g := funext hg
  calc xs.map g = (xs.map bare).map g := by rw [List.map_map, hcomp]
    _ = (ys.map bare).map g := by rw [h.bared]
    _ = ys.map g := by rw [List.map_map, hcomp]

end EqualBut

/-- A field without its comment. -/
def Field.uncommented (f : Field) : Field := { f with comment := .empty }

/-- The view of a field without its comment. -/
def FieldView.uncommented (f : FieldView) : FieldView := { f with comment := [] }

/-- Whether two blocks are equal but for comments of fields in some places and for which of them
defines the anchor that gives them their name. -/
structure Fields.SameBut (places : Nat → Prop) (fs fs' : Fields) : Prop where
  comment : fs'.comment = fs.comment
  position : fs'.position = fs.position
  sharedName : fs'.sharedName = fs.sharedName
  fields : EqualBut Field.uncommented places fs.list fs'.list

/-- Whether two structs are equal but for comments of fields in some places. -/
structure ShapeView.SameBut (places : Nat → Prop) (s s' : ShapeView) : Prop where
  typeName : s'.typeName = s.typeName
  declare : s'.declare = s.declare
  comment : s'.comment = s.comment
  fields : EqualBut FieldView.uncommented places s.fields s'.fields

/-- The pairs of the block under a key of a definition. -/
def Node.blockPairs (definition : Node) (key : String) : List (Node × Node) :=
  ((lastUnder key definition.members).map (·.2.members)).getD []

/-- The fields, by number, whose types are written as aliases in the block under a key of a
definition. -/
def Node.AliasTyped (definition : Node) (key : String) (i : Nat) : Prop :=
  ∃ p, (definition.blockPairs key)[i]? = some p ∧ p.2.shape = .reference

/-- Whether two queries are equal but for comments of fields whose types are written as aliases. -/
structure Query.SameBut (definition : Node) (q q' : Query) : Prop where
  name : q'.name = q.name
  comment : q'.comment = q.comment
  type : q'.type = q.type
  sql : q'.sql = q.sql
  position : q'.position = q.position
  params : q.params.SameBut (definition.AliasTyped "params") q'.params
  out : q.out.SameBut (definition.AliasTyped "out") q'.out

/-- Whether the views of two queries are equal but for comments of fields whose types are written as
aliases. -/
structure QueryView.SameBut (definition : Node) (v v' : QueryView) : Prop where
  name : v'.name = v.name
  method : v'.method = v.method
  kind : v'.kind = v.kind
  comment : v'.comment = v.comment
  label : v'.label = v.label
  sql : v'.sql = v.sql
  params : EqualBut FieldView.uncommented (definition.AliasTyped "params") v.params v'.params
  bundle : Option.Rel (ShapeView.SameBut (definition.AliasTyped "params")) v.bundle v'.bundle
  args : v'.args = v.args
  out : Option.Rel (ShapeView.SameBut (definition.AliasTyped "out")) v.out v'.out

/-! ## Queries -/

namespace Grammar

open Node (substitutedPair)

variable {p : Node × Node} {pairs : List (Node × Node)}

/-- The comment of a field is that of its name or of its type as it is written. -/
theorem ofNodes_congr {key type type' : Node} (h : type.info = type'.info) :
    Comment.ofNodes [key, type] = Comment.ofNodes [key, type'] := by
  have hraw : Comment.rawOfNode type = Comment.rawOfNode type' := by
    unfold Comment.rawOfNode
    rw [h]
  unfold Comment.ofNodes
  by_cases hkey : (Comment.rawOfNode key).isEmpty <;>
    by_cases htype : (Comment.rawOfNode type').isEmpty <;> simp [hkey, htype, hraw]

/-- A field whose type is no alias stays as it is. -/
theorem fieldOf_substituted (h : p.2.shape ≠ .reference) :
    fieldOf (substitutedPair p) = fieldOf p := by
  have hinfo : p.2.substituted.info = p.2.info := by
    rw [Node.info_substituted, Node.resolve_eq_self h]
  unfold fieldOf substitutedPair
  dsimp only
  rw [Node.resolve_substituted, Node.text_substituted, ofNodes_congr hinfo]

/-- Every field stays as it is but for its comment. -/
theorem uncommented_fieldOf_substituted (p : Node × Node) :
    (fieldOf (substitutedPair p)).uncommented = (fieldOf p).uncommented := by
  unfold fieldOf substitutedPair Field.uncommented
  dsimp only
  rw [Node.resolve_substituted, Node.text_substituted]

/-- So do the fields of a block. -/
theorem fieldsOf_substituted (pairs : List (Node × Node)) :
    EqualBut Field.uncommented (fun i => ∃ p, pairs[i]? = some p ∧ p.2.shape = .reference)
      (pairs.map fieldOf) ((pairs.map substitutedPair).map fieldOf) where
  bared := by
    rw [List.map_map, List.map_map, List.map_map]
    exact List.map_congr_left fun p _ => (uncommented_fieldOf_substituted p).symm
  others := by
    intro i hi
    rw [List.map_map, List.getElem?_map, List.getElem?_map]
    cases hp : pairs[i]? with
    | none => rfl
    | some p =>
      have hshape : p.2.shape ≠ .reference := fun h => hi ⟨p, hp, h⟩
      exact congrArg some (fieldOf_substituted hshape).symm

/-- A block that was read stays, though it may have as its anchor what it was a copy of. -/
theorem blockOf_substituted {n : Node} (h : n.IsRead) :
    (blockOf n).SameBut (fun i => ∃ p, n.members[i]? = some p ∧ p.2.shape = .reference)
      (blockOf n.substituted) where
  comment := rfl
  position := by simp [blockOf]
  sharedName := by
    show n.substituted.aliasOf.or n.substituted.anchor = n.aliasOf.or n.anchor
    rw [Node.aliasOf_substituted, Option.none_or]
    exact h.anchor_substituted
  fields := by
    unfold blockOf
    rw [Node.members_substituted]
    exact fieldsOf_substituted n.members

/-- So does the block under a key. -/
theorem blockUnder_substituted {definition : Node} (h : definition.IsRead) (key : String) :
    (blockUnder key definition.members).SameBut (definition.AliasTyped key)
      (blockUnder key definition.substituted.members) := by
  unfold Node.AliasTyped Node.blockPairs blockUnder
  rw [Node.members_substituted, lastUnder_substituted]
  cases hlast : lastUnder key definition.members with
  | none => exact ⟨rfl, rfl, rfl, rfl, fun _ _ => rfl⟩
  | some p =>
    have hsame := blockOf_substituted (h.members p (mem_of_lastUnder hlast).1).2
    exact ⟨rfl, hsame.position, hsame.sharedName, hsame.fields⟩

/-- A definition that was read stays one. -/
theorem IsDefinition.substituted {n : Node} (hread : n.IsRead) (h : IsDefinition n) :
    IsDefinition n.substituted where
  mapping := by simpa using h.mapping
  entries := by
    rw [Node.members_substituted]
    exact List.forall_mem_map.mpr fun p hp => (h.entries p hp).substituted
  hasSql := by
    have hsql : lastUnder "sql" n.substituted.members ≠ none := by
      rw [Node.members_substituted, lastUnder_substituted, Ne, Option.map_eq_none_iff, lastUnder,
        List.getLast?_eq_none_iff]
      exact h.hasSql
    intro hnil
    exact hsql (by rw [lastUnder, hnil, List.getLast?_nil])
  shape := by
    intro type htype
    rw [Node.members_substituted, isTypeUnder_substituted] at htype
    exact (h.shape type htype).of_types
      ((blockUnder_substituted hread "out").fields.map_eq fun _ => rfl)

/-- A document that was read stays one. -/
theorem IsDocument.substituted {root : Node} (hread : root.IsRead) (h : IsDocument root) :
    IsDocument root.substituted where
  mapping := by simpa using h.mapping
  names := by
    rw [Node.members_substituted]
    exact h.names.substituted
  definitions := by
    rw [Node.members_substituted]
    exact List.forall_mem_map.mpr fun p hp =>
      (h.definitions p hp).substituted (hread.members p hp).2

/-- A definition describes the same query, but for comments, with targets in the places of
aliases. -/
theorem Describes.sameBut {q q' : Query} (hread : p.2.IsRead)
    (hentries : ∀ p' ∈ p.2.members, IsEntry p') (h : Describes p q)
    (h' : Describes (substitutedPair p) q') : q.SameBut p.2 q' where
  name := h'.name.trans h.name.symm
  comment := h'.comment.trans h.comment.symm
  type := by
    obtain ⟨type, htype, -⟩ := foldl_addPair hentries
    have hafter := h'.type
    rw [substitutedPair, Node.members_substituted, isTypeUnder_substituted, htype] at hafter
    rw [hafter, (htype q.type).mp h.type]
  sql := by
    have hafter := h'.sql
    rw [substitutedPair, Node.members_substituted, lastUnder_substituted, Option.map_map] at hafter
    have hsql : sqlOf ∘ substitutedPair = sqlOf := by
      funext p
      simp [sqlOf, substitutedPair]
    rw [hsql, h.sql] at hafter
    exact (Option.some.inj hafter).symm
  position := h'.position.trans h.position.symm
  params := by
    rw [h.params, h'.params]
    exact blockUnder_substituted hread "params"
  out := by
    rw [h.out, h'.out]
    exact blockUnder_substituted hread "out"

end Grammar

/-! ## Views -/

namespace FieldView

variable {naming : Naming} {names params : List String} {places : Nat → Prop} {fs fs' : List Field}

theorem map_uncommented_ofFields (fs : List Field) :
    (ofFields naming names params fs).map uncommented =
      ofFields naming names params (fs.map Field.uncommented) := by
  induction fs generalizing names params with
  | nil => rfl
  | cons f rest ih =>
    unfold ofFields
    rw [List.map_cons, ih]
    rfl

/-- A view is determined by what it is without its comment and by its comment. -/
theorem option_ext {v v' : Option FieldView} (h : v.map uncommented = v'.map uncommented)
    (hcomment : v.map (·.comment) = v'.map (·.comment)) : v = v' := by
  cases v with
  | none => exact (Option.map_eq_none_iff.mp h.symm).symm
  | some v =>
    obtain ⟨v', rfl, huncommented⟩ := Option.map_eq_some_iff.mp h.symm
    obtain ⟨name, param, type, comment⟩ := v
    obtain ⟨name', param', type', comment'⟩ := v'
    cases huncommented
    cases hcomment
    rfl

/-- The views of fields are equal but for the comments for which the fields are. -/
theorem ofFields_equalBut (h : EqualBut Field.uncommented places fs fs') :
    EqualBut uncommented places (ofFields naming names params fs)
      (ofFields naming names params fs') where
  bared := by rw [map_uncommented_ofFields, map_uncommented_ofFields, h.bared]
  others := by
    intro i hi
    apply option_ext
    · rw [← List.getElem?_map, ← List.getElem?_map, map_uncommented_ofFields,
        map_uncommented_ofFields, h.bared]
    · rw [← List.getElem?_map, ← List.getElem?_map, map_comment_ofFields, map_comment_ofFields,
        List.getElem?_map, List.getElem?_map, h.others i hi]

end FieldView

/-- A block gives the same struct, but for comments of fields. -/
theorem Fields.SameBut.shape {places : Nat → Prop} {fs fs' : Fields} (h : fs.SameBut places fs')
    (naming : Naming) (declared : List String) (query role : String) :
    (ShapeView.ofFields naming declared fs query role).SameBut places
      (ShapeView.ofFields naming declared fs' query role) := by
  have hname : ShapeView.nameOf naming fs' query role = ShapeView.nameOf naming fs query role := by
    unfold ShapeView.nameOf
    rw [h.sharedName]
  exact
    { typeName := hname
      declare := by
        unfold ShapeView.ofFields
        dsimp only
        rw [hname]
      comment := congrArg (·.lines) h.comment
      fields := FieldView.ofFields_equalBut h.fields }

/-- The number of fields stays. -/
theorem Fields.SameBut.size_eq {places : Nat → Prop} {fs fs' : Fields} (h : fs.SameBut places fs') :
    fs'.size = fs.size := by
  have hlength := congrArg List.length h.fields.bared
  rw [List.length_map, List.length_map] at hlength
  exact hlength.symm

namespace QueryView

/-- What is equal of structs is equal of structs that may be there. -/
theorem map_eq_of_rel {β : Type} {places : Nat → Prop} {shape shape' : Option ShapeView}
    (h : Option.Rel (ShapeView.SameBut places) shape shape') {g : ShapeView → β}
    (hg : ∀ s s', s.SameBut places s' → g s' = g s) : shape'.map g = shape.map g := by
  cases h with
  | none => rfl
  | some hsame => exact congrArg some (hg _ _ hsame)

/-- Structs of one type name add the same to the type names that are declared. -/
theorem declaring_eq {places : Nat → Prop} {shape shape' : Option ShapeView}
    (h : Option.Rel (ShapeView.SameBut places) shape shape') (declared : List String) :
    declaring declared shape' = declaring declared shape := by
  unfold declaring
  rw [map_eq_of_rel h fun _ _ hsame => hsame.typeName]

end QueryView

namespace Query.SameBut

variable {definition : Node} {q q' : Query}

theorem isBundled_eq (h : q.SameBut definition q') :
    QueryView.isBundled q' = QueryView.isBundled q := by
  unfold QueryView.isBundled
  rw [h.params.sharedName, h.params.size_eq]

/-- The struct of the result rows stays, but for comments. -/
theorem out_view (h : q.SameBut definition q') (naming : Naming) (declared : List String) :
    Option.Rel (ShapeView.SameBut (definition.AliasTyped "out"))
      (QueryView.outOf naming declared q) (QueryView.outOf naming declared q') := by
  have hempty : q'.out.isEmpty = q.out.isEmpty := by
    have hsize := h.out.size_eq
    unfold Fields.size at hsize
    rw [Fields.isEmpty, Fields.isEmpty, Bool.eq_iff_iff, List.isEmpty_iff_length_eq_zero,
      List.isEmpty_iff_length_eq_zero, hsize]
  unfold QueryView.outOf
  rw [hempty]
  split
  · exact .none
  · rw [h.name]
    exact .some (h.out.shape naming declared q.name "row")

/-- So does the struct of the parameters. -/
theorem bundle_view (h : q.SameBut definition q') (naming : Naming) (declared : List String) :
    Option.Rel (ShapeView.SameBut (definition.AliasTyped "params"))
      (QueryView.bundleOf naming declared q) (QueryView.bundleOf naming declared q') := by
  unfold QueryView.bundleOf
  rw [h.isBundled_eq]
  split
  · rw [h.name]
    exact .some (h.params.shape naming declared q.name "params")
  · exact .none

/-- The parameters that are passed one by one stay, but for comments. -/
theorem params_view (h : q.SameBut definition q') (naming : Naming) :
    EqualBut FieldView.uncommented (definition.AliasTyped "params")
      (if QueryView.isBundled q then [] else FieldView.ofFields naming [] [] q.params.list)
      (if QueryView.isBundled q' then [] else FieldView.ofFields naming [] [] q'.params.list) := by
  rw [h.isBundled_eq]
  split
  · exact ⟨rfl, fun _ _ => rfl⟩
  · exact FieldView.ofFields_equalBut h.params.fields

/-- The view of a query stays, but for comments. -/
theorem view (h : q.SameBut definition q') (naming : Naming) (declared : List String) :
    (QueryView.ofQuery naming declared q).SameBut definition
      (QueryView.ofQuery naming declared q') := by
  have hout := h.out_view naming declared
  -- the struct of the parameters is made when the type name of the rows is declared
  have hbundle : Option.Rel (ShapeView.SameBut (definition.AliasTyped "params"))
      (QueryView.ofQuery naming declared q).bundle
      (QueryView.ofQuery naming declared q').bundle := by
    show Option.Rel _
      (QueryView.bundleOf naming
        (QueryView.declaring declared (QueryView.outOf naming declared q)) q)
      (QueryView.bundleOf naming
        (QueryView.declaring declared (QueryView.outOf naming declared q')) q')
    rw [QueryView.declaring_eq hout]
    exact h.bundle_view naming _
  have hparams := h.params_view naming
  have hlabel : QueryView.labelOf q' = QueryView.labelOf q := by
    unfold QueryView.labelOf
    rw [h.comment, h.name]
  exact
    { name := h.name
      method := congrArg naming.exported h.name
      kind := h.type
      comment := congrArg (·.lines) h.comment
      label := hlabel
      sql := by
        unfold QueryView.ofQuery
        dsimp only
        rw [hlabel, h.sql]
      params := hparams
      bundle := hbundle
      args := by
        have hfields := QueryView.map_eq_of_rel hbundle fun s s' hsame =>
          (hsame.fields.map_eq (g := fun f => "args." ++ f.name) fun _ => rfl).symm
        have hpassed := hparams.map_eq (g := (·.param)) fun _ => rfl
        rw [QueryView.args_ofQuery, QueryView.args_ofQuery, hfields]
        exact congrArg _ hpassed.symm
      out := hout }

end Query.SameBut

/-- The type names that are declared after a view stay. -/
theorem QueryView.SameBut.declaredAfter_eq {definition : Node} {v v' : QueryView}
    (h : v.SameBut definition v') (declared : List String) :
    QueryView.declaredAfter declared v' = QueryView.declaredAfter declared v := by
  unfold QueryView.declaredAfter
  rw [QueryView.declaring_eq h.out, QueryView.declaring_eq h.bundle]

/-- The views of queries stay one by one, since each declares the type names that it declared. -/
theorem QueryView.ofQueries_sameBut {pairs : List (Node × Node)} {qs qs' : List Query}
    (h : List.Forall₂ (fun q q' => ∃ p ∈ pairs, p.1.text = q.name ∧ q.SameBut p.2 q') qs qs')
    (naming : Naming) (declared : List String) :
    List.Forall₂ (fun v v' => ∃ p ∈ pairs, p.1.text = v.name ∧ v.SameBut p.2 v')
      (QueryView.ofQueries naming declared qs) (QueryView.ofQueries naming declared qs') := by
  induction h generalizing declared with
  | nil => exact .nil
  | @cons q q' _ _ hq _ ih =>
    obtain ⟨p, hp, hname, hsame⟩ := hq
    have hview := hsame.view naming declared
    unfold QueryView.ofQueries
    dsimp only
    rw [hview.declaredAfter_eq]
    exact .cons ⟨p, hp, hname, hview⟩ (ih _)

/-! ## Documents -/

/-- Pairs describe the same queries, but for comments, with targets in the places of aliases. -/
theorem Grammar.forall₂_sameBut {pairs : List (Node × Node)} {qs qs' : List Query}
    (hread : ∀ p ∈ pairs, p.2.IsRead) (hdefinitions : ∀ p ∈ pairs, IsDefinition p.2)
    (h : List.Forall₂ Describes pairs qs)
    (h' : List.Forall₂ Describes (pairs.map Node.substitutedPair) qs') :
    List.Forall₂ (fun q q' => ∃ p ∈ pairs, p.1.text = q.name ∧ q.SameBut p.2 q') qs qs' := by
  rw [List.forall₂_map_left_iff] at h'
  induction h generalizing qs' with
  | nil =>
    cases h'
    exact .nil
  | @cons p q pairs _ hq _ ih =>
    cases h' with
    | cons hq' hrest' =>
      rw [List.forall_mem_cons] at hread hdefinitions
      refine .cons ⟨p, List.mem_cons_self, hq.name.symm, ?_⟩ ?_
      · exact hq.sameBut hread.1 hdefinitions.1.entries hq'
      · exact (ih hread.2 hdefinitions.2 hrest').imp fun _ _ ⟨p', hp', hsame⟩ =>
          ⟨p', List.mem_cons_of_mem p hp', hsame⟩

/-- **An alias means its target.** With the targets of all aliases in their places, so that none is
left, a tree that was read is still accepted, and each query is what it was, down to its positions
and to the names that its blocks share with others. Under any naming the views of the queries are
what they were, and they declare the same structs. Only comments of fields may differ, where the type
is written as an alias. -/
theorem alias_means_target [Diagnosis] {source : String} {root : Node} {queries : Queries}
    (hread : Document.read source = .ok (some root)) (h : Queries.ofNode root = .ok queries) :
    root.substituted.IsDirect ∧ ∃ queries', Queries.ofNode root.substituted = .ok queries' ∧
      List.Forall₂ (fun q q' => ∃ p ∈ root.members, p.1.text = q.name ∧ q.SameBut p.2 q')
        queries.list queries'.list ∧
      ∀ naming, List.Forall₂ (fun v v' => ∃ p ∈ root.members, p.1.text = v.name ∧ v.SameBut p.2 v')
        (QueryView.ofQueries naming [] queries.list)
        (QueryView.ofQueries naming [] queries'.list) := by
  have hroot := Document.isRead_read hread
  obtain ⟨hdocument, hdescribes⟩ := Grammar.queriesOfNode_eq_ok.mp h
  have hdocument' := hdocument.substituted hroot
  obtain ⟨list, hlist⟩ := Grammar.exists_forall₂_describes hdocument'.definitions
  have hsame : List.Forall₂ (fun q q' => ∃ p ∈ root.members, p.1.text = q.name ∧ q.SameBut p.2 q')
      queries.list list := by
    apply Grammar.forall₂_sameBut (fun p hp => (hroot.members p hp).2) hdocument.definitions
      hdescribes
    rw [← Node.members_substituted]
    exact hlist
  exact ⟨root.isDirect_substituted, ⟨list⟩, Grammar.queriesOfNode_eq_ok.mpr ⟨hdocument', hlist⟩,
    hsame, fun naming => QueryView.ofQueries_sameBut hsame naming []⟩

/-- A document in which a definition, a type, SQL, blocks and the type of a field are aliases. -/
def aliased : String :=
  "a: &q\n  type: &k one\n  sql: &s select 1\n  params: &p\n    id: &i int # number\n" ++
    "    other: *i\n  out: *p\nb: *q\nc:\n  type: *k\n  sql: *s\n  out: *p\n"

/-- Its tree. -/
def aliasedTree : Node := ((Document.read aliased).toOption.bind id).getD default

/-- Its queries. -/
def aliasedQueries : Queries := (Queries.ofNode aliasedTree).toOption.getD .empty

/-- Aliases in all places mean their targets, though the queries are not the same in all they
hold. -/
theorem alias_means_target_in_all_places :
    Document.read aliased = .ok (some aliasedTree) ∧
      Queries.ofNode aliasedTree = .ok aliasedQueries ∧ aliasedQueries.names = ["a", "b", "c"] ∧
      ∃ queries', Queries.ofNode aliasedTree.substituted = .ok queries' ∧
        queries' ≠ aliasedQueries ∧
        List.Forall₂ (fun q q' => ∃ p ∈ aliasedTree.members, p.1.text = q.name ∧ q.SameBut p.2 q')
          aliasedQueries.list queries'.list := by
  obtain ⟨htree, hsome, hnames, hother⟩ :
      ((Document.read aliased).toOption.bind id).isSome = true ∧
        (Queries.ofNode aliasedTree).toOption.isSome = true ∧
        aliasedQueries.names = ["a", "b", "c"] ∧
        (Queries.ofNode aliasedTree.substituted).toOption ≠ some aliasedQueries := by
    decide +kernel
  have hread : Document.read aliased = .ok (some aliasedTree) := by
    obtain ⟨root, hroot⟩ := Option.isSome_iff_exists.mp htree
    obtain ⟨root?, hread, rfl⟩ := Option.bind_eq_some_iff.mp hroot
    rw [Reading.eq_ok_iff_toOption, aliasedTree, hroot, hread]
    rfl
  have hqueries : Queries.ofNode aliasedTree = .ok aliasedQueries :=
    Reading.eq_ok_getD hsome .empty
  obtain ⟨-, queries', hqueries', hsame, -⟩ := alias_means_target hread hqueries
  rw [hqueries'] at hother
  exact ⟨hread, hqueries, hnames, queries', hqueries', fun heq => hother (congrArg some heq), hsame⟩

end QueryBook
