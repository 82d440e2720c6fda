import QueryBook.Proofs.AnchorNames
import QueryBook.Proofs.BuiltNodes
import QueryBook.Proofs.Comments
import QueryBook.Proofs.Grammar

/-!
# Nodes that were read

Every node of a tree that was read from a source has comments made of tidy lines and, if it defines
an anchor, a name for it; an alias defines none and leads to no other alias.
-/

namespace QueryBook

/-! ## Nodes -/

/-- What is known of a node that was read, whatever its shape. -/
structure NodeInfo.IsRead (info : NodeInfo) : Prop where
  head : (Comment.parse info.headComment).IsTidy
  line : (Comment.parse info.lineComment).IsTidy
  anchor : ∀ name ∈ info.anchor, IsName name

/-- What is known of a node that was read. -/
inductive Node.IsRead : Node → Prop
  | scalar {info : NodeInfo} {value : String} {style : ScalarStyle} (hinfo : info.IsRead) :
      IsRead (.scalar info value style)
  | mapping {info : NodeInfo} {pairs : List (Node × Node)} (hinfo : info.IsRead)
      (hkeys : ∀ p ∈ pairs, IsRead p.1) (hvalues : ∀ p ∈ pairs, IsRead p.2) :
      IsRead (.mapping info pairs)
  | sequence {info : NodeInfo} {items : List Node} (hinfo : info.IsRead)
      (hitems : ∀ n ∈ items, IsRead n) : IsRead (.sequence info items)
  | reference {info : NodeInfo} {target : Node} (hinfo : info.IsRead) (hanchor : info.anchor = none)
      (hdirect : target.shape ≠ .reference) (htarget : IsRead target) :
      IsRead (.reference info target)

namespace Node.IsRead

variable {n : Node}

/-- What is known of every node. -/
theorem info (h : n.IsRead) : n.info.IsRead := by
  cases h <;> assumption

/-- The node that an alias leads to was read. -/
theorem resolve (h : n.IsRead) : n.resolve.IsRead := by
  induction h with
  | scalar hinfo => exact .scalar hinfo
  | mapping hinfo hkeys hvalues => exact .mapping hinfo hkeys hvalues
  | sequence hinfo hitems => exact .sequence hinfo hitems
  | reference _ _ _ _ ih => exact ih

/-- The keys and values of a mapping were read. -/
theorem members (h : n.IsRead) : ∀ p ∈ n.members, p.1.IsRead ∧ p.2.IsRead := by
  intro p hp
  have hresolve := h.resolve
  unfold Node.members at hp
  cases hshape : n.resolve with
  | mapping info pairs =>
    rw [hshape] at hp hresolve
    cases hresolve with
    | mapping _ hkeys hvalues => exact ⟨hkeys p hp, hvalues p hp⟩
  | scalar | sequence | reference =>
    rw [hshape] at hp
    cases hp

/-- An alias defines no anchor. -/
theorem anchor_eq_none (h : n.IsRead) (halias : n.aliasOf ≠ none) : n.anchor = none := by
  cases h with
  | reference _ hanchor _ _ => exact hanchor
  | scalar | mapping | sequence => exact absurd rfl halias

/-- The anchor of a node has a name. -/
theorem isName_anchor (h : n.IsRead) : ∀ name ∈ n.anchor, IsName name := h.info.anchor

/-- So does the one an alias refers to. -/
theorem isName_aliasOf (h : n.IsRead) : ∀ name ∈ n.aliasOf, IsName name := by
  cases h with
  | reference _ _ _ htarget => exact htarget.isName_anchor
  | scalar | mapping | sequence => exact nofun

end Node.IsRead

/-- The comment of nodes that were read is tidy. -/
theorem Comment.isTidy_ofNodes {nodes : List Node} (h : ∀ n ∈ nodes, n.IsRead) :
    (Comment.ofNodes nodes).IsTidy := by
  unfold ofNodes
  split
  · next n hn =>
    have hinfo := (h n (List.mem_of_find?_eq_some hn)).info
    unfold rawOfNode
    split
    · exact hinfo.line
    · exact hinfo.head
  · exact isTidy_empty

/-! ## Documents -/

namespace TreeBuilder

open Yaml (Event)

variable {b : TreeBuilder}

/-- The name of an anchor is one. -/
theorem isName_anchorName? (hnames : ∀ name ∈ b.anchorNames, IsName name) (anchor : Option Nat) :
    ∀ name ∈ b.anchorName? anchor, IsName name := by
  intro name hname
  obtain ⟨number, -, hname⟩ := Option.bind_eq_some_iff.mp hname
  split at hname
  · cases hname
  · exact hnames name (List.mem_of_getElem? hname)

/-- What a builder makes was read, if its anchors have names and its lines are lines. -/
theorem makes_isRead (hnames : ∀ name ∈ b.anchorNames, IsName name)
    (hmargin : ∀ l ∈ b.margin.lines, '\n' ∉ l) (events : List Event) :
    b.Makes events Node.IsRead := by
  have hcommented (position : Position) (anchor : Option Nat) :
      (b.commented position anchor).IsRead :=
    ⟨Margin.isTidy_head hmargin _ _, Margin.isTidy_trailing hmargin _ _,
      isName_anchorName? hnames anchor⟩
  have huncommented (position : Position) (anchor : Option Nat) :
      (b.uncommented position anchor).IsRead :=
    ⟨Comment.isTidy_empty, Comment.isTidy_empty, isName_anchorName? hnames anchor⟩
  constructor
  case scalar => exact fun _ _ => .scalar (hcommented _ _)
  case reference => exact fun _ _ hdirect htarget => .reference (hcommented _ _) rfl hdirect htarget
  case sequence => exact fun hitems => .sequence (huncommented _ _) hitems
  case mapping =>
    exact fun hpairs => .mapping (huncommented _ _) (fun p hp => (hpairs p hp).1)
      fun p hp => (hpairs p hp).2

end TreeBuilder

/-- The tree of a document was read. -/
theorem Document.isRead_read [Diagnosis] {source : String} {root : Node}
    (h : Document.read source = .ok (some root)) : root.IsRead := by
  obtain ⟨events, -, hroot⟩ := read_eq_ok_some h
  refine (TreeBuilder.makes_isRead ?_ ?_ events).ofEvents hroot
  · intro name hname
    obtain ⟨t, ht, hname⟩ := List.mem_filterMap.mp hname
    have hnamed := Yaml.named_tokens source.toList t ht
    unfold Yaml.Token.anchorName? at hname
    split at hname
    · next hkind =>
      cases hname
      rwa [hkind] at hnamed
    · cases hname
  · exact fun l hl => Text.not_mem_linesFrom List.not_mem_nil hl

end QueryBook
