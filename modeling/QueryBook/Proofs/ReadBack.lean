import QueryBook.Proofs.Kept

/-!
# Reading canonical documents back

The pairs of the outline of queries are read as those queries exactly if the document keeps them.
For each construct a lemma says what its pairs are read as: fields, blocks, and queries one after
the other.
-/

namespace QueryBook

open Yaml
open Grammar

/-! ## Nodes -/

/-- A scalar is read as the text that was written. -/
theorem Node.text_scalar (info : NodeInfo) (t : String) :
    (Node.scalar info t (.ofStyle (styleOf t))).text = t := by
  unfold styleOf
  split
  · next hsafe =>
    obtain ⟨-, -, hnull⟩ := Canonical.plainFrom_of_isPlainSafe hsafe
    simp [text, ScalarStyle.ofStyle, hnull]
  · rfl

/-- A key is read as its text. -/
@[simp] theorem Heading.text_node (m : Margin) (h : Heading) (k line : Nat) :
    (h.node m k line).text = h.key :=
  Node.text_scalar _ _

/-! ## Comments -/

/-- Of the comments around a node its head is read where there is one, else what trails it. -/
theorem Comment.ofNodes_cons (n : Node) {c : Comment} (hc : c.IsTidy)
    (hhead : n.info.headComment = c.raw) {text : List Char}
    (hline : n.info.lineComment = Margin.trailer text) (ns : List Node) :
    Comment.ofNodes (n :: ns) =
      if c.isEmpty then
        if (Margin.trailer text).isEmpty then Comment.ofNodes ns
        else Comment.parse (Margin.trailer text)
      else c := by
  have hraw : Comment.rawOfNode n = if c.isEmpty then Margin.trailer text else c.raw := by
    rw [Comment.rawOfNode, hhead, hline, Comment.isEmpty_raw]
  rw [Comment.ofNodes, List.find?_cons, hraw]
  cases hempty : c.isEmpty with
  | true =>
    simp only [if_true]
    cases htrailer : (Margin.trailer text).isEmpty with
    | true => rfl
    | false => simp only [Bool.not_false, hraw, hempty, if_true, Bool.false_eq_true, if_false]
  | false =>
    have hnot : c.raw.isEmpty = false := by rw [Comment.isEmpty_raw, hempty]
    simp only [Bool.false_eq_true, if_false, hnot, Bool.not_false]
    rw [hraw, hempty]
    exact Comment.parse_raw hc

/-- The comment of a key is read as it was, if nothing behind the key is taken for it. -/
theorem Heading.ofNodes_node {m : Margin} {h : Heading} {k line : Nat} {value : List Char}
    (hc : h.comment.IsTidy) (hfound : h.Found m k line value) :
    Comment.ofNodes [h.node m k line] = h.comment ↔
      (h.comment = .empty → ShowsNoComment (h.written ++ ':' :: value)) := by
  rw [Comment.ofNodes_cons (h.node m k line) hc hfound.head hfound.trailing]
  cases hempty : h.comment.isEmpty with
  | true =>
    have hcomment := Comment.isEmpty_iff.mp hempty
    rw [ShowsNoComment, ← Margin.isEmpty_trailer, hcomment]
    cases htrailer : (Margin.trailer (h.written ++ ':' :: value)).isEmpty with
    | true => simp [Comment.ofNodes]
    | false => simp [Comment.parse_eq_empty_iff, htrailer]
  | false =>
    have hcomment : h.comment ≠ .empty := fun h' => by simp [Comment.isEmpty_iff.mpr h'] at hempty
    simp [hcomment]

/-- The comment of a field is read as it was, if nothing behind its name or its type is taken for
it. -/
theorem Heading.ofNodes_field {m : Margin} {h : Heading} {k line : Nat} {t : String}
    (hc : h.comment.IsTidy) (hfound : h.Found m k line (Leaf.text t).inline)
    (hfound' : (Leaf.text t).Found m (h.valuePosition k line)) (style : ScalarStyle) :
    Comment.ofNodes [h.node m k line, .scalar (m.info (h.valuePosition k line)) t style] =
        h.comment ↔
      (h.comment = .empty →
        ShowsNoComment (h.written ++ ':' :: ' ' :: (Canonical.scalar t).toList) ∧
          ShowsNoComment (Canonical.scalar t).toList) := by
  rw [Comment.ofNodes_cons (h.node m k line) hc hfound.head hfound.trailing,
    Comment.ofNodes_cons (.scalar (m.info (h.valuePosition k line)) t style) Comment.isTidy_empty
      hfound'.1 hfound'.2]
  cases hempty : h.comment.isEmpty with
  | true =>
    have hcomment := Comment.isEmpty_iff.mp hempty
    rw [ShowsNoComment, ShowsNoComment, ← Margin.isEmpty_trailer, ← Margin.isEmpty_trailer, hcomment,
      ← Leaf.inline_text]
    cases hname : (Margin.trailer (h.written ++ ':' :: (Leaf.text t).inline)).isEmpty with
    | false => simp [Comment.parse_eq_empty_iff, hname]
    | true =>
      cases htype : (Margin.trailer (Canonical.scalar t).toList).isEmpty with
      | false => simp [Comment.parse_eq_empty_iff, htype, Comment.isEmpty_iff]
      | true => simp [Comment.ofNodes]
  | false =>
    have hcomment : h.comment ≠ .empty := fun h' => by simp [Comment.isEmpty_iff.mpr h'] at hempty
    simp [hcomment]

/-! ## Fields -/

namespace Outline

variable {m : Margin} {k line after : Nat} {seen : List String} {defined : List (Nat × Node)}

/-- Whether a pair is read as a field, but for its comment if the document does not keep it. -/
structure ReadsField (p : Node × Node) (f : Field) : Prop where
  name : p.1.text = f.name
  type : IsFieldType p.2
  field : (fieldOf p).unplaced = f.unplaced ↔ f.KeepsComment

/-- Two fields are equal without positions if all else is equal. -/
theorem unplaced_field_eq_iff {f f' : Field} :
    f.unplaced = f'.unplaced ↔ f.name = f'.name ∧ f.type = f'.type ∧ f.comment = f'.comment := by
  simp [Field.unplaced]

/-- The pair of a field is read as the field. -/
theorem readsField {f : Field} (hf : f.IsSound) {h : Heading} (hh : h = ⟨0, f.comment, f.name⟩)
    (hfound : h.Found m k line (Leaf.text f.type).inline)
    (hfound' : (Leaf.text f.type).Found m (h.valuePosition k line)) :
    ReadsField (h.node m k line,
      .scalar (m.info (h.valuePosition k line)) f.type (.ofStyle (styleOf f.type))) f := by
  subst hh
  have htype : ∀ info : NodeInfo,
      Text.trim (Node.scalar info f.type (.ofStyle (styleOf f.type))).resolve.text = f.type := by
    intro info
    rw [Node.resolve]
    · rw [Node.text_scalar]
      exact hf.type.1
    · rintro info' target ⟨⟩
  refine ⟨Heading.text_node _ _ _ _, ⟨rfl, ?_⟩, ?_⟩
  · rw [htype]
    exact hf.type.2
  · rw [unplaced_field_eq_iff]
    have hcomment := Heading.ofNodes_field hf.comment hfound hfound' (.ofStyle (styleOf f.type))
    refine ⟨fun h => hcomment.mp h.2.2, fun h => ⟨?_, ?_, hcomment.mpr h⟩⟩
    · exact Heading.text_node _ _ _ _
    · exact htype _

/-- The pairs of fields are read as the fields. -/
theorem pairs_ofFields {fs : List Field} (hfs : ∀ f ∈ fs, f.IsSound)
    (hfound : (ofFields fs).Found m k line) (after : Nat) (seen : List String)
    (defined : List (Nat × Node)) :
    ∃ ps, (ofFields fs).pairs m k line after seen defined = some (ps, defined) ∧
      List.Forall₂ ReadsField ps fs := by
  induction fs generalizing line with
  | nil => exact ⟨[], rfl, .nil⟩
  | cons f fs ih =>
    rw [List.forall_mem_cons] at hfs
    obtain ⟨hkey, hvalue, hrest⟩ := hfound
    obtain ⟨ps, hps, hreads⟩ := ih hfs.2 hrest
    refine ⟨_, ?_, .cons (readsField hfs.1 rfl hkey hvalue) hreads⟩
    rw [ofFields, pairs, hps]
    rfl

/-! ## Blocks -/

/-- The fields of a node without positions. -/
def unplacedFields (n : Node) : List Field := n.members.map fun p => (fieldOf p).unplaced

/-- What holds of pairs that are read as fields holds of them all together. -/
theorem forall_of_readsField {ps : List (Node × Node)} {fs : List Field}
    (h : List.Forall₂ ReadsField ps fs) :
    keyTexts ps = fs.map (·.name) ∧ (∀ p ∈ ps, IsFieldType p.2) ∧
      (ps.map (fun p => (fieldOf p).unplaced) = fs.map (·.unplaced) ↔
        ∀ f ∈ fs, f.KeepsComment) := by
  induction h with
  | nil => simp [keyTexts]
  | @cons p f ps fs hp _ ih =>
    obtain ⟨hkeys, htypes, hfields⟩ := ih
    refine ⟨?_, ?_, ?_⟩
    · rw [keyTexts, List.map_cons, List.map_cons, hp.name, ← hkeys]
      rfl
    · exact List.forall_mem_cons.mpr ⟨hp.type, htypes⟩
    · rw [List.map_cons, List.map_cons, List.cons.injEq, hp.field, hfields, List.forall_mem_cons]

/-- Pairs that are read as fields are those of a block, which is read as these fields if it keeps
their comments. -/
theorem isBlock_of_readsField {n : Node} {ps : List (Node × Node)} {fs : Fields}
    (hfs : fs.IsSound) (hn : n.resolve.pairs? = some ps)
    (hreads : List.Forall₂ ReadsField ps fs.list) :
    IsBlock n ∧ (unplacedFields n = fs.list.map (·.unplaced) ↔ ∀ f ∈ fs.list, f.KeepsComment) := by
  obtain ⟨hshape, hmembers⟩ := Node.pairs?_resolve_eq_some.mp hn
  obtain ⟨hkeys, htypes, hfields⟩ := forall_of_readsField hreads
  refine ⟨⟨hshape, ⟨?_, ?_⟩, ?_⟩, ?_⟩
  · intro p hp
    have hname : p.1.text ∈ fs.list.map (·.name) := by
      rw [← hkeys, ← hmembers]
      exact List.mem_map_of_mem hp
    obtain ⟨f, hf, hname⟩ := List.mem_map.mp hname
    rw [← hname]
    exact (hfs.fields f hf).name
  · rw [hmembers, hkeys]
    exact hfs.distinct
  · rw [hmembers]
    exact htypes
  · rw [unplacedFields, hmembers]
    exact hfields

/-- What a name stands for after the anchors seen so far, given the nodes that are complete. -/
def standsFor (seen : List String) (defined : List (Nat × Node)) (name : String) : Option Node :=
  ((numbered seen).lookup name).bind fun number => defined.lookup number

/-- An alias is a copy of what its name stands for. -/
theorem node_reference (name : String) (position : Position) (blanks : Nat) :
    (Leaf.reference name).node m k position blanks seen defined =
      (standsFor seen defined name).map (.reference (m.info position)) := by
  rw [Leaf.node, standsFor, Option.map_bind]
  rfl

/-- Whether names stand for blocks with certain fields. -/
structure Resolves (seen : List String) (defined : List (Nat × Node)) (anchors : Anchors) :
    Prop where
  fields : ∀ name, anchors.lookup name = (standsFor seen defined name).map unplacedFields
  block : ∀ name n, standsFor seen defined name = some n → n.anchor = some name ∧ IsBlock n

theorem Resolves.nil : Resolves [] [] [] := ⟨fun _ => rfl, fun _ _ h => nomatch h⟩

/-- Names are numbered up to the number of names. -/
theorem le_of_lookup_numbered {name : String} {number : Nat}
    (h : (numbered seen).lookup name = some number) : number ≤ seen.length := by
  induction seen with
  | nil => cases h
  | cons name' seen ih =>
    rw [numbered, List.lookup_cons] at h
    split at h
    · cases h
      exact Nat.le_refl _
    · exact Nat.le_succ_of_le (ih h)

/-- A name that is defined stands for its block, and every other one for what it did before. -/
theorem Resolves.define {anchors : Anchors} (h : Resolves seen defined anchors) {n : Node}
    {name : String} (hname : n.anchor = some name) (hn : IsBlock n) :
    Resolves (name :: seen) ((seen.length + 1, n) :: defined)
      ((name, unplacedFields n) :: anchors) := by
  have hstands (name' : String) : standsFor (name :: seen) ((seen.length + 1, n) :: defined) name' =
      if name' = name then some n else standsFor seen defined name' := by
    rw [standsFor, numbered, List.lookup_cons]
    by_cases heq : name' = name
    · simp [heq]
    · rw [if_neg heq, beq_eq_false_iff_ne.mpr heq, standsFor]
      dsimp only
      cases hnumber : (numbered seen).lookup name' with
      | none => rfl
      | some number =>
        -- a number of an earlier anchor is no greater than the count of those
        have hle := le_of_lookup_numbered hnumber
        rw [Option.bind_some, Option.bind_some, List.lookup_cons,
          beq_eq_false_iff_ne.mpr (by omega)]
  constructor
  · intro name'
    rw [hstands, List.lookup_cons]
    by_cases heq : name' = name
    · simp [heq]
    · rw [beq_eq_false_iff_ne.mpr heq, if_neg heq]
      exact h.fields name'
  · intro name' n' hn'
    rw [hstands] at hn'
    split at hn'
    · next heq =>
      cases hn'
      exact ⟨heq ▸ hname, hn⟩
    · exact h.block name' n' hn'

/-- Two blocks are equal without positions if all else is equal. -/
theorem unplaced_fields_eq_iff {fs fs' : Fields} :
    fs.unplaced = fs'.unplaced ↔ fs.comment = fs'.comment ∧
      fs.list.map (·.unplaced) = fs'.list.map (·.unplaced) ∧ fs.anchor = fs'.anchor ∧
        fs.copyOf = fs'.copyOf := by
  simp [Fields.unplaced]

/-- Whether a pair, or that there is none, is read as a block under a key exactly if the document
keeps it. -/
structure ReadsBlock (key : String) (anchors : Anchors) (pair? : Option (Node × Node))
    (fs : Fields) : Prop where
  pair : ∀ p ∈ pair?, p.1.text = key ∧ IsBlock p.2
  block : ((pair?.map commentedBlock).getD {}).unplaced = fs.unplaced ↔ fs.Kept key anchors

variable {anchors : Anchors} {key : String} {fs : Fields}

/-- An empty block is not written. -/
theorem readsBlock_empty (hempty : fs.isEmpty = true) : ReadsBlock key anchors none fs := by
  refine ⟨fun p hp => absurd hp (Option.not_mem_none p), ?_⟩
  rw [Fields.kept_of_isEmpty hempty]
  exact eq_comm

/-- The comment of a block is read as it was, if nothing behind its key is taken for it. -/
theorem ofNodes_block (hkey : Canonical.scalar key = key) (hfs : fs.IsSound) {h : Heading}
    (hh : h = ⟨0, fs.comment, key⟩) (hfound : h.Found m k line fs.behindKey) :
    Comment.ofNodes [h.node m k line] = fs.comment ↔ fs.KeepsComment key := by
  subst hh
  have hwritten : Heading.written ⟨0, fs.comment, key⟩ = key.toList := congrArg String.toList hkey
  rw [Fields.KeepsComment, ← hwritten]
  exact Heading.ofNodes_node hfs.comment hfound

/-- A copy is read as one of what its anchor stands for. -/
theorem readsBlock_copy (hkey : Canonical.scalar key = key) (hfs : fs.IsSound)
    (hempty : fs.isEmpty = false) {name : String} (hcopy : fs.copyOf = some name)
    (hanchors : Resolves seen defined anchors) {n : Node}
    (hn : standsFor seen defined name = some n) {h : Heading} (hh : h = ⟨0, fs.comment, key⟩)
    (hfound : h.Found m k line (Leaf.reference name).inline) (position : Position) :
    ReadsBlock key anchors (some (h.node m k line, .reference (m.info position) n)) fs := by
  have hbehind : fs.behindKey = (Leaf.reference name).inline := by rw [Fields.behindKey, hcopy]
  have hcomment := ofNodes_block hkey hfs hh (hbehind ▸ hfound)
  obtain ⟨hname, hblock⟩ := hanchors.block name n hn
  constructor
  · intro p hp
    cases hp
    exact ⟨by rw [Heading.text_node, hh], ⟨hblock.mapping, hblock.names, hblock.types⟩⟩
  · have hlookup : anchors.lookup name = some (unplacedFields n) := by
      rw [hanchors.fields, hn]
      rfl
    have hlist : (commentedBlock (h.node m k line, .reference (m.info position) n)).list.map
        (·.unplaced) = unplacedFields n := by
      show (n.members.map fieldOf).map _ = _
      rw [List.map_map]
      rfl
    rw [Fields.kept_of_copy hempty hcopy, Option.map_some, Option.getD_some, unplaced_fields_eq_iff,
      hlist, hlookup, Option.some.injEq, hcopy, hfs.copy (by simp [hcopy])]
    exact ⟨fun ⟨hc, hl, _, _⟩ => ⟨hcomment.mp hc, hl⟩,
      fun ⟨hc, hl⟩ => ⟨hcomment.mpr hc, hl, rfl, hname⟩⟩

/-- A block that is no copy is read as what was written. -/
theorem readsBlock_plain (hkey : Canonical.scalar key = key) (hfs : fs.IsSound)
    (hempty : fs.isEmpty = false) (hcopy : fs.copyOf = none) {h : Heading}
    (hh : h = ⟨0, fs.comment, key⟩) (hfound : h.Found m k line (anchorText fs.anchor))
    {ps : List (Node × Node)} (hreads : List.Forall₂ ReadsField ps fs.list) (position : Position) :
    ReadsBlock key anchors
      (some (h.node m k line, .mapping { position, anchor := fs.anchor } ps)) fs := by
  have hbehind : fs.behindKey = anchorText fs.anchor := by rw [Fields.behindKey, hcopy]
  have hcomment := ofNodes_block hkey hfs hh (hbehind ▸ hfound)
  obtain ⟨hblock, hfields⟩ := isBlock_of_readsField (n := .mapping { position, anchor := fs.anchor } ps)
    hfs rfl hreads
  constructor
  · intro p hp
    cases hp
    exact ⟨by rw [Heading.text_node, hh], hblock⟩
  · have hlist : (commentedBlock (h.node m k line,
        .mapping { position, anchor := fs.anchor } ps)).list.map (·.unplaced) =
          unplacedFields (.mapping { position, anchor := fs.anchor } ps) := by
      show (ps.map fieldOf).map _ = _
      rw [List.map_map]
      rfl
    rw [Fields.kept_of_plain hempty hcopy, Option.map_some, Option.getD_some,
      unplaced_fields_eq_iff, hlist, hfields, hcopy]
    exact ⟨fun ⟨hc, hl, _, _⟩ => ⟨hcomment.mp hc, hl⟩,
      fun ⟨hc, hl⟩ => ⟨hcomment.mpr hc, hl, rfl, rfl⟩⟩

/-- Fields define no anchors. -/
theorem anchors_ofFields (fs : List Field) : (ofFields fs).anchors = [] := by
  induction fs with
  | nil => rfl
  | cons f fs ih => exact ih

/-- What a block leaves in the pairs of an outline: its pair, unless it is empty, and behind it the
rest, from a line on and with the nodes that are complete by then. What the block is read as is said
under a condition on what comes before it. -/
structure BlockPair (m : Margin) (k line after : Nat) (seen : List String)
    (defined : List (Nat × Node)) (anchors : Anchors) (key : String) (fs : Fields) (rest : Outline)
    (before : Prop) (pair? : Option (Node × Node)) (line' : Nat) (defined' : List (Nat × Node)) :
    Prop where
  found : rest.Found m k line'
  named : ∀ p ∈ pair?, p.1.text = key
  pairs : (ofBlock key fs rest).pairs m k line after seen defined =
    (rest.pairs m k line' after (fs.defines.toList ++ seen) defined').map
      fun r => (pair?.toList ++ r.1, r.2)
  reads : before → ReadsBlock key anchors pair? fs
  resolves : before → fs.Kept key anchors →
    Resolves (fs.defines.toList ++ seen) defined' (fs.define anchors)

variable {before : Prop} {rest : Outline}

/-- An empty block leaves nothing. -/
theorem blockPair_empty (hempty : fs.isEmpty = true)
    (hanchors : before → Resolves seen defined anchors)
    (hfound : (ofBlock key fs rest).Found m k line) (after : Nat) :
    BlockPair m k line after seen defined anchors key fs rest before none line defined := by
  have hdefines : fs.defines = none := by rw [Fields.defines, hempty]; rfl
  have hblock : ofBlock key fs rest = rest := if_pos hempty
  rw [hblock] at hfound
  refine ⟨hfound, fun p hp => absurd hp (Option.not_mem_none p), ?_, fun _ => readsBlock_empty hempty,
    fun hbefore _ => ?_⟩
  · rw [hblock, hdefines]
    simp
  · rw [Fields.define, hdefines]
    exact hanchors hbefore

/-- A copy of a block that its name stands for leaves an alias to it. -/
theorem blockPair_copy (hkey : Canonical.scalar key = key) (hfs : fs.IsSound)
    (hempty : fs.isEmpty = false) {name : String} (hcopy : fs.copyOf = some name)
    (hanchors : before → Resolves seen defined anchors)
    (hfound : (ofBlock key fs rest).Found m k line) (after : Nat) {n : Node}
    (hn : standsFor seen defined name = some n) :
    ∃ pair? line', BlockPair m k line after seen defined anchors key fs rest before pair? line'
      defined := by
  have hdefines : fs.defines = none := by simp [Fields.defines, hcopy]
  have hblock : ofBlock key fs rest = leaf ⟨0, fs.comment, key⟩ (.reference name) rest := by
    simp [ofBlock, hempty, hcopy]
  rw [hblock] at hfound
  obtain ⟨hfound, -, hrest⟩ := hfound
  refine ⟨some (_, .reference (m.info (Heading.valuePosition ⟨0, fs.comment, key⟩ k line)) n), _,
    hrest, ?_, ?_, fun hbefore => readsBlock_copy hkey hfs hempty hcopy (hanchors hbefore) hn rfl
      hfound _, fun hbefore _ => ?_⟩
  · intro p hp
    cases hp
    exact Heading.text_node m ⟨0, fs.comment, key⟩ k line
  · rw [hblock, pairs, node_reference, hn, hdefines, Option.map_some, Option.bind_some,
      Option.map_eq_bind]
    rfl
  · rw [Fields.define, hdefines]
    exact hanchors hbefore

/-- Any other block leaves a mapping, and its anchor stands for it from then on. -/
theorem blockPair_plain (hkey : Canonical.scalar key = key) (hfs : fs.IsSound)
    (hempty : fs.isEmpty = false) (hcopy : fs.copyOf = none)
    (hanchors : before → Resolves seen defined anchors)
    (hfound : (ofBlock key fs rest).Found m k line) (after : Nat) :
    ∃ pair? line' defined', BlockPair m k line after seen defined anchors key fs rest before pair?
      line' defined' := by
  have hdefines : fs.defines = fs.anchor := by simp [Fields.defines, hempty, hcopy]
  have hblock : ofBlock key fs rest =
      nested ⟨0, fs.comment, key⟩ fs.anchor (ofFields fs.list) rest := by
    simp [ofBlock, hempty, hcopy]
  rw [hblock] at hfound
  obtain ⟨hfound, hinner, hrest⟩ := hfound
  obtain ⟨ps, hps, hreads⟩ := pairs_ofFields hfs.fields hinner (rest.gap after)
    (fs.anchor.toList ++ seen) defined
  -- no field has an anchor of its own
  have hseen : seenBehind seen fs.anchor (ofFields fs.list) = fs.anchor.toList ++ seen := by
    rw [seenBehind, anchors_ofFields]
    rfl
  let n := (ofFields fs.list).mapping (k + 2) (line + Heading.height ⟨0, fs.comment, key⟩ + 1)
    fs.anchor ps
  have hreadsBlock : ReadsBlock key anchors (some (_, n)) fs :=
    readsBlock_plain hkey hfs hempty hcopy rfl hfound hreads n.position
  refine ⟨some (_, n), _, define defined (anchorNumber seen fs.anchor) n, hrest,
    fun p hp => (hreadsBlock.pair p hp).1, ?_, fun _ => hreadsBlock, fun hbefore hkept => ?_⟩
  · rw [hblock, pairs, hps, Option.bind_some, hseen, hdefines, Option.map_eq_bind]
    rfl
  · obtain ⟨hmapping, hfields⟩ := isBlock_of_readsField (n := n) hfs rfl hreads
    have hunplaced := hfields.mpr ((Fields.kept_of_plain hempty hcopy).mp hkept).2
    rw [Fields.define, hdefines]
    cases hanchor : fs.anchor with
    | none => exact hanchors hbefore
    | some name =>
      dsimp only
      rw [← hunplaced]
      exact (hanchors hbefore).define hanchor hmapping

/-- The pairs of a block and of what follows it: an alias to no anchor cannot be read, else the block
leaves what it is read as. -/
theorem pairs_ofBlock (hkey : Canonical.scalar key = key) (hfs : fs.IsSound)
    (hanchors : before → Resolves seen defined anchors) (rest : Outline)
    (hfound : (ofBlock key fs rest).Found m k line) (after : Nat) :
    ((ofBlock key fs rest).pairs m k line after seen defined = none ∧
        (before → ¬ fs.Kept key anchors)) ∨
      ∃ pair? line' defined', BlockPair m k line after seen defined anchors key fs rest before pair?
        line' defined' := by
  cases hempty : fs.isEmpty with
  | true => exact .inr ⟨none, line, defined, blockPair_empty hempty hanchors hfound after⟩
  | false =>
    cases hcopy : fs.copyOf with
    | some name =>
      cases hn : standsFor seen defined name with
      | none =>
        -- the name stands for nothing that is complete
        refine .inl ⟨?_, fun hbefore => ?_⟩
        · simp [ofBlock, hempty, hcopy, pairs, node_reference, hn]
        · rw [Fields.kept_of_copy hempty hcopy, (hanchors hbefore).fields, hn]
          rintro ⟨-, ⟨⟩⟩
      | some n =>
        obtain ⟨pair?, line', hpair⟩ :=
          blockPair_copy hkey hfs hempty hcopy hanchors hfound after hn
        exact .inr ⟨pair?, line', defined, hpair⟩
    | none => exact .inr (blockPair_plain hkey hfs hempty hcopy hanchors hfound after)

/-! ## Queries -/

/-- SQL is read as a scalar, with its text exactly if that is kept. -/
theorem node_ofSql (s : Sql) (position : Position) (blanks : Nat) (seen : List String)
    (defined : List (Nat × Node)) :
    ∃ n, (ofSql s).node m k position blanks seen defined = some n ∧ n.resolve.shape = .scalar ∧
      (n.resolve.text = s.text ↔ s.Kept blanks) := by
  unfold ofSql Sql.Kept
  cases s.style with
  | plain =>
    refine ⟨_, rfl, rfl, ?_⟩
    rw [Node.resolve]
    · simp [Node.text_scalar]
    · rintro info target ⟨⟩
  | literal =>
    refine ⟨_, rfl, rfl, ?_⟩
    show String.ofList (Block.withBlanks s.text.toList blanks) = s.text ↔ _
    rw [← String.toList_inj, String.toList_ofList, Block.withBlanks]
    by_cases htrailing : 2 ≤ Sql.trailing s.text.toList
    · simp [htrailing, Nat.not_lt.mpr htrailing]
    · simp [htrailing, Nat.not_le.mp htrailing]

/-- The token of a type stands for it. -/
theorem isTokenOf_token (t : QueryType) : IsTokenOf t.token t := by
  rw [← ofToken?_eq_some]
  cases t <;> decide +kernel

/-- A type is read as its token. -/
theorem node_ofType (t : QueryType) (position : Position) (blanks : Nat) (seen : List String)
    (defined : List (Nat × Node)) :
    ∃ n, (Leaf.text t.token).node m k position blanks seen defined = some n ∧
      IsTokenOf n.resolve.text t := by
  refine ⟨_, rfl, ?_⟩
  rw [Node.resolve]
  · rw [Node.text_scalar]
    exact isTokenOf_token t
  · rintro info target ⟨⟩

/-- The empty lines behind the SQL of a query. -/
theorem gap_ofBlocks (q : Query) (after : Nat) :
    (ofBlock "params" q.params (ofBlock "out" q.out done)).gap after = q.blanksAfterSql after := by
  unfold ofBlock Query.blanksAfterSql
  cases q.params.isEmpty with
  | false => cases q.params.copyOf <;> rfl
  | true =>
    cases q.out.isEmpty with
    | false => cases q.out.copyOf <;> rfl
    | true => rfl

/-- Two queries are equal without positions if all else is equal. -/
theorem unplaced_query_eq_iff {q q' : Query} :
    q.unplaced = q'.unplaced ↔ q.name = q'.name ∧ q.comment = q'.comment ∧ q.type = q'.type ∧
      q.sql.text = q'.sql.text ∧ q.params.unplaced = q'.params.unplaced ∧
        q.out.unplaced = q'.out.unplaced := by
  simp [Query.unplaced, Sql.unplaced]

/-- What fits a type fits it without positions. -/
theorem fitsType_of_unplaced {type : QueryType} {out out' : List Field}
    (h : out.map (·.unplaced) = out'.map (·.unplaced)) (hfits : FitsType type out) :
    FitsType type out' := by
  constructor
  · rw [← hfits.present, Ne, Ne, ← List.map_eq_nil_iff (f := (·.unplaced)) (l := out'), ← h,
      List.map_eq_nil_iff]
  · intro f hf c hc
    have hmem : f.unplaced ∈ out.map (·.unplaced) := h ▸ List.mem_map_of_mem hf
    obtain ⟨f', hf', heq⟩ := List.mem_map.mp hmem
    refine hfits.values f' hf' c ?_
    rw [(unplaced_field_eq_iff.mp heq).2.1]
    exact hc

/-- Whether a pair is read as a query, but for positions. -/
def ReadsQuery (p : Node × Node) (q : Query) : Prop :=
  ∃ q', IsDefinition p.2 ∧ Describes p q' ∧ q'.unplaced = q.unplaced

/-- The pairs that a query is written as: its type and SQL, and a pair for each of its blocks that
is not empty. The type is read as its own, and the SQL and the blocks are exactly if the document
keeps them; what the result block is read as depends on the parameters before it. -/
structure QueryPairs (q : Query) (anchors : Anchors) (blanks : Nat) where
  type : Node × Node
  sql : Node × Node
  params : Option (Node × Node)
  out : Option (Node × Node)
  typeKey : type.1.text = "type"
  token : IsTokenOf type.2.resolve.text q.type
  sqlKey : sql.1.text = "sql"
  shape : sql.2.resolve.shape = .scalar
  text : sql.2.resolve.text = q.sql.text ↔ q.sql.Kept (q.blanksAfterSql blanks)
  outKey : ∀ p ∈ out, p.1.text = "out"
  readsParams : ReadsBlock "params" anchors params q.params
  readsOut : q.params.Kept "params" anchors → ReadsBlock "out" (q.params.define anchors) out q.out

namespace QueryPairs

variable {q : Query} {blanks : Nat} (ps : QueryPairs q anchors blanks)

/-- The pairs in the order in which they are written. -/
def list : List (Node × Node) :=
  ps.type :: ps.sql :: (ps.params.toList ++ ps.out.toList)

/-- Each key has its own pair. -/
theorem lastUnder_list : lastUnder "type" ps.list = some ps.type ∧
    lastUnder "sql" ps.list = some ps.sql ∧ lastUnder "params" ps.list = ps.params ∧
      lastUnder "out" ps.list = ps.out := by
  obtain ⟨type, sql, params, out, htype, -, hsql, -, -, hout, hparams, -⟩ := ps
  replace hparams : ∀ p ∈ params, p.1.text = "params" := fun p hp => (hparams.pair p hp).1
  unfold list
  cases params with
  | none => cases out <;> simp_all [lastUnder_cons, lastUnder_nil]
  | some p => cases out <;> simp_all [lastUnder_cons, lastUnder_nil]

/-- The parameters are those of their pair. -/
theorem blockUnder_params :
    blockUnder "params" ps.list = (ps.params.map commentedBlock).getD {} := by
  rw [blockUnder, ps.lastUnder_list.2.2.1]

/-- The result block is that of its pair. -/
theorem blockUnder_out : blockUnder "out" ps.list = (ps.out.map commentedBlock).getD {} := by
  rw [blockUnder, ps.lastUnder_list.2.2.2]

/-- The SQL is that of its pair. -/
theorem map_sqlOf : (lastUnder "sql" ps.list).map sqlOf = some (sqlOf ps.sql) := by
  rw [ps.lastUnder_list.2.1]
  rfl

/-- The type is that of the query. -/
theorem isTypeUnder_iff {type : QueryType} : IsTypeUnder ps.list type ↔ type = q.type := by
  rw [IsTypeUnder, ps.lastUnder_list.1]
  constructor
  · exact fun h => h.unique ps.token
  · rintro rfl
    exact ps.token

/-- Where SQL that is not blank keeps its text, its node can be the SQL of a query. -/
theorem isSql (hq : q.IsSound) (hsql : q.sql.Kept (q.blanksAfterSql blanks)) :
    IsSql ps.sql.2 := by
  refine ⟨ps.shape, ?_⟩
  have hblank := hq.sql
  rw [Text.isAllBlank, List.all_eq_false] at hblank
  obtain ⟨c, hc, hnot⟩ := hblank
  exact ⟨c, by rwa [ps.text.mpr hsql], by simpa using hnot⟩

/-- Each pair fits its key if the SQL does and the parameters are kept. -/
theorem isEntry (hsql : IsSql ps.sql.2) (hparams : q.params.Kept "params" anchors) :
    ∀ p ∈ ps.list, IsEntry p := by
  intro p hp
  simp only [list, List.mem_cons, List.mem_append, Option.mem_toList] at hp
  rcases hp with rfl | rfl | hp | hp
  · have hkey := ps.typeKey
    exact ⟨by simp [hkey], fun _ => ⟨_, ps.token⟩, by simp [hkey], by simp [hkey], by simp [hkey]⟩
  · have hkey := ps.sqlKey
    exact ⟨by simp [hkey], by simp [hkey], fun _ => hsql, by simp [hkey], by simp [hkey]⟩
  · obtain ⟨hkey, hblock⟩ := ps.readsParams.pair p hp
    exact ⟨by simp [hkey], by simp [hkey], by simp [hkey], fun _ => hblock, by simp [hkey]⟩
  · obtain ⟨hkey, hblock⟩ := (ps.readsOut hparams).pair p hp
    exact ⟨by simp [hkey], by simp [hkey], by simp [hkey], by simp [hkey], fun _ => hblock⟩

variable {name : Node}

/-- What is read as the query keeps its parts. -/
theorem kept_of_readsQuery (hcomment : Comment.ofNodes [name] = q.comment ↔ q.KeepsComment)
    {info : NodeInfo} (h : ReadsQuery (name, .mapping info ps.list) q) : q.Kept anchors blanks := by
  obtain ⟨q', -, hdescribes, heq⟩ := h
  obtain ⟨-, hcomment', -, hsql, hparams, hout⟩ := unplaced_query_eq_iff.mp heq
  have hparamsKept : q.params.Kept "params" anchors := by
    rw [← ps.readsParams.block, ← hparams, hdescribes.params, ← ps.blockUnder_params]
    rfl
  refine ⟨hcomment.mp (hdescribes.comment ▸ hcomment'), ps.text.mp ?_, hparamsKept, ?_⟩
  · have hsqlOf := ps.map_sqlOf.symm.trans hdescribes.sql
    rw [← hsql, ← Option.some.inj hsqlOf]
    rfl
  · rw [← (ps.readsOut hparamsKept).block, ← hout, hdescribes.out, ← ps.blockUnder_out]
    rfl

/-- A query whose parts are kept is read. -/
theorem readsQuery_of_kept (hq : q.IsSound) (hname : name.text = q.name)
    (hcomment : Comment.ofNodes [name] = q.comment ↔ q.KeepsComment) (info : NodeInfo)
    (hkept : q.Kept anchors blanks) : ReadsQuery (name, .mapping info ps.list) q := by
  have hparams : (blockUnder "params" ps.list).unplaced = q.params.unplaced := by
    rw [ps.blockUnder_params]
    exact ps.readsParams.block.mpr hkept.params
  have hout : (blockUnder "out" ps.list).unplaced = q.out.unplaced := by
    rw [ps.blockUnder_out]
    exact (ps.readsOut hkept.params).block.mpr hkept.out
  have hdefinition : IsDefinition (.mapping info ps.list) := by
    refine ⟨rfl, ps.isEntry (ps.isSql hq hkept.sql) hkept.params, fun hnil => ?_,
      fun type htype => ?_⟩
    · have hlast := ps.lastUnder_list.2.1
      replace hnil : pairsUnder "sql" ps.list = [] := hnil
      rw [lastUnder, hnil] at hlast
      cases hlast
    · rw [ps.isTypeUnder_iff.mp htype]
      exact fitsType_of_unplaced (congrArg Fields.list hout).symm hq.fits
  exact ⟨⟨name.text, .ofNodes [name], q.type, sqlOf ps.sql, blockUnder "params" ps.list,
      blockUnder "out" ps.list, name.position⟩,
    hdefinition, ⟨rfl, rfl, rfl, ps.isTypeUnder_iff.mpr rfl, ps.map_sqlOf, rfl, rfl⟩,
    unplaced_query_eq_iff.mpr
      ⟨hname, hcomment.mpr hkept.comment, rfl, ps.text.mpr hkept.sql, hparams, hout⟩⟩

end QueryPairs

/-- The pairs of a query, and as what a pair with them is read. Unless an alias in them cannot be
read they are read as the query exactly if the document keeps it. -/
theorem pairs_ofQuery {q : Query} (hq : q.IsSound) (hfound : (ofQuery q).Found m k line)
    (hanchors : Resolves seen defined anchors) (after : Nat) {h : Heading} {line' : Nat}
    (hcomment : h.comment = q.comment) (hkey : h.key = q.name) {k' : Nat}
    (hfound' : h.Found m k' line' []) :
    ((ofQuery q).pairs m k line after seen defined = none ∧ ¬ q.Kept anchors after) ∨
      ∃ ps defined', (ofQuery q).pairs m k line after seen defined = some (ps, defined') ∧
        (∀ info, ReadsQuery (h.node m k' line', .mapping info ps) q ↔ q.Kept anchors after) ∧
        (q.Kept anchors after →
          Resolves (q.out.defines.toList ++ (q.params.defines.toList ++ seen)) defined'
            (q.define anchors)) := by
  obtain ⟨-, -, -, -, hblocks⟩ := hfound
  have hscalar : Canonical.scalar "params" = "params" ∧ Canonical.scalar "out" = "out" := by decide
  obtain ⟨sqlNode, hsqlNode, hshape, hsql⟩ := node_ofSql (m := m) (k := k) q.sql
    (Heading.valuePosition ⟨0, .empty, "sql"⟩ k
      (line + Heading.height ⟨0, .empty, "type"⟩ + 1 + (Leaf.text q.type.token).height))
    (q.blanksAfterSql after) seen defined
  obtain ⟨typeNode, htypeNode, htoken⟩ := node_ofType (m := m) (k := k) q.type
    (Heading.valuePosition ⟨0, .empty, "type"⟩ k line) 0 seen defined
  rw [ofQuery, pairs, pairs, gap_ofBlocks, hsqlNode, gap, htypeNode]
  rcases pairs_ofBlock hscalar.1 hq.params (fun _ : True => hanchors) _ hblocks after with
    ⟨hnone, hkept⟩ | ⟨params?, line₁, defined₁, hparams⟩
  · rw [hnone]
    exact .inl ⟨rfl, fun h => hkept trivial h.params⟩
  -- what the result block is read as depends on the parameters being kept
  rcases pairs_ofBlock hscalar.2 hq.out (hparams.resolves trivial) done hparams.found after with
    ⟨hnone, hkept⟩ | ⟨out?, line₂, defined₂, hout⟩
  · rw [hparams.pairs, hnone]
    exact .inl ⟨rfl, fun h => hkept h.params h.out⟩
  · rw [hparams.pairs, hout.pairs]
    refine .inr ⟨_, defined₂, rfl, fun info => ?_, fun h => hout.resolves h.params h.out⟩
    have hcomment' : Comment.ofNodes [h.node m k' line'] = q.comment ↔ q.KeepsComment := by
      rw [Query.KeepsComment, ← hcomment, ← hkey]
      exact Heading.ofNodes_node (hcomment ▸ hq.comment) hfound'
    have hname := (Heading.text_node m h k' line').trans hkey
    let ps : QueryPairs q anchors after :=
      { type := (Heading.node m ⟨0, .empty, "type"⟩ k line, typeNode)
        sql := (Heading.node m ⟨0, .empty, "sql"⟩ k (line + Heading.height ⟨0, .empty, "type"⟩ + 1 +
          (Leaf.text q.type.token).height), sqlNode)
        params := params?
        out := out?
        typeKey := Heading.text_node m ⟨0, .empty, "type"⟩ k line
        token := htoken
        sqlKey := Heading.text_node m ⟨0, .empty, "sql"⟩ k _
        shape := hshape
        text := hsql
        outKey := hout.named
        readsParams := hparams.reads trivial
        readsOut := hout.reads }
    dsimp only
    rw [List.append_nil]
    exact ⟨ps.kept_of_readsQuery hcomment', ps.readsQuery_of_kept hq hname hcomment' info⟩

/-- The anchors of a block and of what follows it. -/
theorem anchors_ofBlock (key : String) (fs : Fields) (rest : Outline) :
    (ofBlock key fs rest).anchors = fs.defines.toList ++ rest.anchors := by
  unfold ofBlock Fields.defines
  cases fs.isEmpty with
  | true => rfl
  | false =>
    cases fs.copyOf with
    | some name => rfl
    | none => simp [anchors, anchors_ofFields]

/-- The anchors seen behind a query. -/
theorem seenBehind_ofQuery (q : Query) (seen : List String) :
    seenBehind seen none (ofQuery q) =
      q.out.defines.toList ++ (q.params.defines.toList ++ seen) := by
  have hanchors : (ofQuery q).anchors =
      q.params.defines.toList ++ (q.out.defines.toList ++ []) := by
    rw [ofQuery, anchors, anchors, anchors_ofBlock, anchors_ofBlock]
    rfl
  rw [seenBehind, hanchors]
  cases q.params.defines <;> cases q.out.defines <;> rfl

/-- The pairs of queries are read as the queries exactly if the document keeps them. -/
theorem pairs_ofQueries {qs : List Query} (hqs : ∀ q ∈ qs, q.IsSound) {blanks : Nat}
    (hfound : (ofQueries blanks qs).Found m 0 line) (hanchors : Resolves seen defined anchors) :
    (∃ r, (ofQueries blanks qs).pairs m 0 line 0 seen defined = some r ∧
        List.Forall₂ ReadsQuery r.1 qs) ↔ Queries.KeptFrom anchors qs := by
  induction qs generalizing blanks line seen defined anchors with
  | nil => exact iff_of_true ⟨_, rfl, .nil⟩ trivial
  | cons q qs ih =>
    rw [List.forall_mem_cons] at hqs
    obtain ⟨hkey, hquery, hrest⟩ := hfound
    have hgap : (ofQueries 1 qs).gap 0 = if qs.isEmpty then 0 else 1 := by cases qs <;> rfl
    rw [ofQueries, pairs, hgap, seenBehind_ofQuery, Queries.KeptFrom]
    rcases pairs_ofQuery hqs.1 hquery hanchors (if qs.isEmpty then 0 else 1) rfl rfl hkey with
      ⟨hnone, hkept⟩ | ⟨ps, defined', hps, hreads, hresolves⟩
    · refine iff_of_false ?_ fun h => hkept h.1
      rintro ⟨r, hr, -⟩
      have hnone' : (ofQuery q).pairs m (0 + 2) _ (if qs.isEmpty then 0 else 1)
        (Option.toList none ++ seen) defined = none := hnone
      rw [hnone'] at hr
      cases hr
    · have hps' : (ofQuery q).pairs m (0 + 2) _ (if qs.isEmpty then 0 else 1)
        (Option.toList none ++ seen) defined = _ := hps
      rw [hps', Option.bind_some]
      constructor
      · rintro ⟨r, hr, hforall⟩
        obtain ⟨r', hr', heq⟩ := Option.bind_eq_some_iff.mp hr
        cases heq
        cases hforall with
        | cons hq hrest' =>
          have hkept := (hreads _).mp hq
          exact ⟨hkept, (ih hqs.2 hrest (hresolves hkept)).mp ⟨r', hr', hrest'⟩⟩
      · rintro ⟨hkept, hrest'⟩
        obtain ⟨r', hr', hforall⟩ := (ih hqs.2 hrest (hresolves hkept)).mpr hrest'
        exact ⟨_, Option.bind_eq_some_iff.mpr ⟨r', hr', rfl⟩, .cons ((hreads _).mpr hkept) hforall⟩

end Outline

end QueryBook
