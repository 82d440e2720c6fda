import QueryBook.Document
import QueryBook.Proofs.Reading

/-!
# Nodes that are built

The tree of a document is built from its events. What can be said of a node because it can be said
of its parts holds of the whole tree: the builder keeps it of all nodes it holds, whether they are
finished, lie in an open collection or wait for an alias. No alias waits for another, since an alias
has no anchor.
-/

namespace QueryBook

open Yaml (Event EventKind)

/-- The complete nodes with another one, if it has an anchor. -/
def define (defined : List (Nat × Node)) (anchor : Option Nat) (n : Node) : List (Nat × Node) :=
  match anchor with
  | some number => (number, n) :: defined
  | none => defined

theorem lookup_define_self (defined : List (Nat × Node)) (number : Nat) (n : Node) :
    (define defined (some number) n).lookup number = some n :=
  List.lookup_cons_self

/-- A node under an anchor leaves what other anchors stand for. -/
theorem lookup_define_of_ne {defined : List (Nat × Node)} {anchor : Option Nat} {number : Nat}
    (h : anchor ≠ some number) (n : Node) :
    (define defined anchor n).lookup number = defined.lookup number := by
  cases anchor with
  | none => rfl
  | some number' =>
    have hother : (number == number') = false := by
      rw [beq_eq_false_iff_ne]
      rintro rfl
      exact h rfl
    rw [define, List.lookup_cons, hother]

namespace TreeBuilder

/-- A node is noted under its anchor before it is handed on. -/
theorem complete_eq (b : TreeBuilder) (anchor : Option Nat) (n : Node) :
    b.complete anchor n =
      ({ b with defined := define b.defined anchor n } : TreeBuilder).complete none n := by
  cases anchor <;> rfl

theorem steps_cons (b : TreeBuilder) (e : Event) (es : List Event) :
    b.steps (e :: es) = (b.step e).bind (·.steps es) := List.foldlM_cons

theorem steps_append (b : TreeBuilder) (es es' : List Event) :
    b.steps (es ++ es') = (b.steps es).bind (·.steps es') := List.foldlM_append

/-- Whether a builder makes only nodes with a property of some events, if their parts have it. -/
structure Makes (b : TreeBuilder) (events : List Event) (good : Node → Prop) : Prop where
  scalar {e : Event} {text : String} {style : Yaml.Style} {anchor : Option Nat} : e ∈ events →
    e.kind = .scalar text style anchor →
      good (.scalar (b.commented e.position anchor) text (.ofStyle style))
  reference {e : Event} {number : Nat} {target : Node} : e ∈ events →
    e.kind = .reference number → target.shape ≠ .reference → good target →
      good (.reference (b.commented e.position none) target)
  sequence {position : Position} {anchor : Option Nat} {items : List Node} : (∀ n ∈ items, good n) →
    good (.sequence (b.uncommented position anchor) items)
  mapping {position : Position} {anchor : Option Nat} {pairs : List (Node × Node)} :
    (∀ p ∈ pairs, good p.1 ∧ good p.2) → good (.mapping (b.uncommented position anchor) pairs)

end TreeBuilder

/-- Whether the nodes in an open collection have a property. -/
def OpenNode.HasOnly (good : Node → Prop) : OpenNode → Prop
  | .sequence _ _ items => ∀ n ∈ items, good n
  | .mapping _ _ pairs key => (∀ p ∈ pairs, good p.1 ∧ good p.2) ∧ ∀ n ∈ key, good n

namespace TreeBuilder

/-- Whether a builder that has come from another holds only nodes with a property, and no aliases
among those with an anchor. -/
structure HasOnly (good : Node → Prop) (start b : TreeBuilder) : Prop where
  names : b.anchorNames = start.anchorNames
  margin : b.margin = start.margin
  defined : ∀ p ∈ b.defined, p.2.shape ≠ .reference ∧ good p.2
  stack : ∀ n ∈ b.stack, n.HasOnly good
  root : ∀ n ∈ b.root, good n

namespace HasOnly

variable {good : Node → Prop} {start b b' : TreeBuilder} {n : Node} {events es : List Event}

/-- What a node with comments has is what it had at the start. -/
theorem commented_eq (h : HasOnly good start b) (position : Position) (anchor : Option Nat) :
    b.commented position anchor = start.commented position anchor := by
  unfold commented anchorName?
  rw [h.names, h.margin]

/-- So it is for a node without comments. -/
theorem uncommented_eq (h : HasOnly good start b) (position : Position) (anchor : Option Nat) :
    b.uncommented position anchor = start.uncommented position anchor := by
  unfold uncommented anchorName?
  rw [h.names]

/-- A node is handed to the innermost open collection. -/
theorem complete_none (h : HasOnly good start b) (hn : good n) :
    HasOnly good start (b.complete none n) := by
  have hstack := h.stack
  unfold TreeBuilder.complete
  dsimp only
  split
  · exact { h with root := by simpa using hn }
  · next position anchor items rest hrest =>
    rw [hrest, List.forall_mem_cons] at hstack
    exact { h with
      stack := List.forall_mem_cons.mpr ⟨List.forall_mem_cons.mpr ⟨hn, hstack.1⟩, hstack.2⟩ }
  · next position anchor pairs rest hrest =>
    rw [hrest, List.forall_mem_cons] at hstack
    exact { h with
      stack := List.forall_mem_cons.mpr ⟨⟨hstack.1.1, by simpa using hn⟩, hstack.2⟩ }
  · next position anchor pairs key rest hrest =>
    rw [hrest, List.forall_mem_cons] at hstack
    have hopen : (OpenNode.mapping position anchor ((key, n) :: pairs) none).HasOnly good :=
      ⟨List.forall_mem_cons.mpr ⟨⟨hstack.1.2 key rfl, hn⟩, hstack.1.1⟩, nofun⟩
    exact { h with stack := List.forall_mem_cons.mpr ⟨hopen, hstack.2⟩ }

/-- So is one with an anchor, which is noted first. -/
theorem complete (h : HasOnly good start b) (anchor : Option Nat) (hshape : n.shape ≠ .reference)
    (hn : good n) : HasOnly good start (b.complete anchor n) := by
  cases anchor with
  | none => exact h.complete_none hn
  | some number =>
    have hdefine : HasOnly good start { b with defined := (number, n) :: b.defined } :=
      { h with defined := List.forall_mem_cons.mpr ⟨⟨hshape, hn⟩, h.defined⟩ }
    exact hdefine.complete_none hn

/-- A collection without items is opened. -/
theorem openNode (h : HasOnly good start b) {n : OpenNode} (hn : n.HasOnly good) :
    HasOnly good start (b.openNode n) :=
  { h with stack := List.forall_mem_cons.mpr ⟨hn, h.stack⟩ }

/-- A collection is closed. -/
theorem close (h : HasOnly good start b) {n : OpenNode} {rest : List OpenNode}
    (hstack : b.stack = n :: rest) :
    n.HasOnly good ∧ HasOnly good start { b with stack := rest } := by
  have hall := h.stack
  rw [hstack, List.forall_mem_cons] at hall
  exact ⟨hall.1, { h with stack := hall.2 }⟩

/-- An event leaves the builder with nodes that have the property. -/
theorem step (h : HasOnly good start b) (hmakes : start.Makes events good) {e : Event}
    (he : e ∈ events) (hstep : b.step e = .ok b') : HasOnly good start b' := by
  unfold TreeBuilder.step at hstep
  -- scalars and references are complete at once, a collection is opened first and then closed
  split at hstep
  · next text style anchor hkind =>
    cases hstep
    rw [h.commented_eq]
    exact h.complete _ nofun (hmakes.scalar he hkind)
  · next number hkind =>
    split at hstep
    · next target htarget =>
      cases hstep
      obtain ⟨before, after, hdefined, -⟩ := List.lookup_eq_some_iff.mp htarget
      obtain ⟨hdirect, hgood⟩ := h.defined (number, target) (by simp [hdefined])
      rw [h.commented_eq]
      exact h.complete_none (hmakes.reference he hkind hdirect hgood)
    · cases hstep
  · cases hstep
    exact h.openNode nofun
  · cases hstep
    exact h.openNode ⟨nofun, nofun⟩
  · split at hstep
    · next position anchor items rest hrest =>
      cases hstep
      obtain ⟨hitems, hclosed⟩ := h.close hrest
      rw [h.uncommented_eq]
      exact hclosed.complete _ nofun (hmakes.sequence fun n hn => hitems n (List.mem_reverse.mp hn))
    · cases hstep
  · split at hstep
    · next position anchor pairs rest hrest =>
      cases hstep
      obtain ⟨hpairs, hclosed⟩ := h.close hrest
      rw [h.uncommented_eq]
      exact hclosed.complete _ nofun
        (hmakes.mapping fun p hp => hpairs.1 p (List.mem_reverse.mp hp))
    · cases hstep

/-- So do events one after the other. -/
theorem steps (h : HasOnly good start b) (hmakes : start.Makes events good) (hes : es ⊆ events)
    (hsteps : b.steps es = .ok b') : HasOnly good start b' := by
  unfold TreeBuilder.steps at hsteps
  induction es generalizing b with
  | nil =>
    rw [Reading.foldlM_nil_eq_ok] at hsteps
    rw [hsteps]
    exact h
  | cons e es ih =>
    rw [Reading.foldlM_cons_eq_ok] at hsteps
    obtain ⟨next, hnext, hrest⟩ := hsteps
    rw [List.cons_subset] at hes
    exact ih (h.step hmakes hes.1 hnext) hes.2 hrest

end HasOnly

/-- A tree has a property that its nodes have if their parts have it. -/
theorem Makes.ofEvents {anchorNames : List String} {margin : Margin} {events : List Event}
    {root : Node} {good : Node → Prop}
    (hmakes : Makes { anchorNames, margin } events good)
    (h : Node.ofEvents? anchorNames margin events = .ok root) : good root := by
  obtain ⟨b, hsteps, hroot⟩ := Reading.bind_eq_ok.mp h
  have hstart : HasOnly good { anchorNames, margin } { anchorNames, margin } :=
    ⟨rfl, rfl, nofun, nofun, nofun⟩
  have hbuilt := hstart.steps hmakes (List.Subset.refl events) hsteps
  split at hroot
  · next hstack hsome =>
    cases hroot
    exact hbuilt.root _ hsome
  · cases hroot

end TreeBuilder

namespace Document

/-- A tree that is read is built from the events of its tokens. -/
theorem read_eq_ok_some [Diagnosis] {source : String} {root : Node}
    (h : read source = .ok (some root)) :
    ∃ events, Yaml.events? (Yaml.tokens source.toList) = some (some events) ∧
      Node.ofEvents? ((Yaml.tokens source.toList).filterMap (·.anchorName?))
        (marginOf source.toList events) events = .ok root := by
  unfold read at h
  dsimp only at h
  split at h
  · cases h
  · cases h
  · next events hevents =>
    obtain ⟨n, hn, heq⟩ := Reading.map_eq_ok.mp h
    cases heq
    exact ⟨events, hevents, hn⟩

end Document

end QueryBook
