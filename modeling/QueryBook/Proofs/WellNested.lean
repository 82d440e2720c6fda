import QueryBook.Yaml.Event
import Mathlib.Algebra.Group.Even
import Mathlib.Algebra.Order.Group.Int

/-!
# Well-nested events

The events of one node are a scalar, an alias, or the start and the end of a collection around the
events of the nodes in it. What is open in the middle of them is counted by their depth: it is back
at zero with the last event, and not before. An alias refers back if a node with its anchor has been
closed before it.
-/

namespace QueryBook.Yaml

/-! ## Nodes -/

/-- The number of the anchor that an event defines. -/
def Event.anchor? (e : Event) : Option Nat :=
  match e.kind with
  | .scalar _ _ anchor | .sequenceStart anchor | .mappingStart anchor => anchor
  | _ => none

/-- The events of one node. A mapping has an even number of nodes in it, keys and values in turn. -/
inductive IsNode : List Event → Prop
  | scalar {text : String} {style : Style} {anchor : Option Nat} {position : Position} :
      IsNode [⟨.scalar text style anchor, position⟩]
  | reference {number : Nat} {position : Position} : IsNode [⟨.reference number, position⟩]
  | sequence {anchor : Option Nat} {position last : Position} {children : List (List Event)}
      (hchildren : ∀ es ∈ children, IsNode es) :
      IsNode (⟨.sequenceStart anchor, position⟩ :: (children.flatten ++ [⟨.sequenceEnd, last⟩]))
  | mapping {anchor : Option Nat} {position last : Position} {children : List (List Event)}
      (hchildren : ∀ es ∈ children, IsNode es) (heven : Even children.length) :
      IsNode (⟨.mappingStart anchor, position⟩ :: (children.flatten ++ [⟨.mappingEnd, last⟩]))

/-- The anchor of a node, by its events. -/
def anchorOf (events : List Event) : Option Nat := events.head?.bind (·.anchor?)

theorem IsNode.ne_nil {events : List Event} (h : IsNode events) : events ≠ [] := by
  cases h <;> exact List.cons_ne_nil _ _

/-! ## Depth -/

/-- By how much an event changes the number of open collections. -/
def Event.rise (e : Event) : Int :=
  match e.kind with
  | .sequenceStart _ | .mappingStart _ => 1
  | .sequenceEnd | .mappingEnd => -1
  | _ => 0

/-- The number of collections that events leave open. -/
def depth : List Event → Int
  | [] => 0
  | e :: events => e.rise + depth events

@[simp] theorem depth_nil : depth [] = 0 := rfl

@[simp] theorem depth_cons (e : Event) (events : List Event) :
    depth (e :: events) = e.rise + depth events := rfl

@[simp] theorem depth_append (events events' : List Event) :
    depth (events ++ events') = depth events + depth events' := by
  induction events with
  | nil => exact (Int.zero_add _).symm
  | cons e events ih => rw [List.cons_append, depth_cons, ih, depth_cons, Int.add_assoc]

/-- Events that leave nothing open at the end, and something before that. -/
structure IsClosed (events : List Event) : Prop where
  depth : depth events = 0
  inside : ∀ part rest, events = part ++ rest → part ≠ [] → rest ≠ [] → 0 < Yaml.depth part

theorem isClosed_singleton {e : Event} (h : e.rise = 0) : IsClosed [e] where
  depth := by simp [h]
  inside := by
    intro part rest heq hpart hrest
    rcases List.append_eq_singleton_iff.mp heq.symm with ⟨rfl, -⟩ | ⟨-, rfl⟩
    · exact absurd rfl hpart
    · exact absurd rfl hrest

/-- Nodes one after the other close what they open, and on the way nothing else is closed. -/
theorem depth_flatten {children : List (List Event)} (h : ∀ es ∈ children, IsClosed es) :
    depth children.flatten = 0 ∧ ∀ part, part <+: children.flatten → 0 ≤ depth part := by
  induction children with
  | nil =>
    refine ⟨rfl, fun part hpart => ?_⟩
    rw [List.prefix_nil.mp hpart, depth_nil]
  | cons es children ih =>
    obtain ⟨hes, hchildren⟩ := List.forall_mem_cons.mp h
    obtain ⟨hdepth, hparts⟩ := ih hchildren
    refine ⟨by rw [List.flatten_cons, depth_append, hes.depth, hdepth, add_zero], ?_⟩
    intro part hpart
    rw [List.flatten_cons] at hpart
    obtain ⟨rest, hrest⟩ := hpart
    rcases List.append_eq_append_iff.mp hrest with ⟨more, hmore, -⟩ | ⟨more, rfl, hmore⟩
    · -- the part ends in the first node
      by_cases hnil : part = []
      · rw [hnil, depth_nil]
      · by_cases hall : more = []
        · rw [hall, List.append_nil] at hmore
          rw [← hmore, hes.depth]
        · exact (hes.inside part more hmore hnil hall).le
    · rw [depth_append, hes.depth, zero_add]
      exact hparts more ⟨rest, hmore.symm⟩

/-- A collection around nodes is closed with its last event. -/
theorem isClosed_collection {first last : Event} {children : List (List Event)}
    (hfirst : first.rise = 1) (hlast : last.rise = -1) (h : ∀ es ∈ children, IsClosed es) :
    IsClosed (first :: (children.flatten ++ [last])) := by
  obtain ⟨hdepth, hparts⟩ := depth_flatten h
  refine ⟨by simp [hfirst, hlast, hdepth], ?_⟩
  intro part rest heq hpart hrest
  obtain ⟨e, part, rfl⟩ := List.exists_cons_of_ne_nil hpart
  rw [List.cons_append] at heq
  obtain ⟨rfl, hinner⟩ := List.cons.inj heq
  -- the last event is not in the part
  have hprefix : part <+: children.flatten := by
    obtain ⟨before, e, rfl⟩ := (List.eq_nil_or_concat rest).resolve_left hrest
    rw [List.concat_eq_append, ← List.append_assoc] at hinner
    exact ⟨before, (List.append_inj_left' hinner rfl).symm⟩
  have := hparts part hprefix
  rw [depth_cons, hfirst]
  omega

/-- The events of a node leave nothing open at the end, and something before that. -/
theorem IsNode.isClosed {events : List Event} (h : IsNode events) : IsClosed events := by
  induction h with
  | scalar => exact isClosed_singleton rfl
  | reference => exact isClosed_singleton rfl
  | sequence _ ih => exact isClosed_collection rfl rfl ih
  | mapping _ _ ih => exact isClosed_collection rfl rfl ih

/-- Of the nodes that end in one place there is only one. -/
theorem IsClosed.unique {before node before' node' : List Event} (h : IsClosed node)
    (h' : IsClosed node') (hne : node ≠ []) (hne' : node' ≠ [])
    (heq : before ++ node = before' ++ node') : before = before' ∧ node = node' := by
  -- what the longer one has in front of the other would be a part that leaves nothing open
  have hfront : ∀ {long short more : List Event}, IsClosed long → IsClosed short → short ≠ [] →
      long = more ++ short → more = [] := by
    intro long short more hlong hshort hne heq
    by_contra hmore
    have hinside := hlong.inside more short heq hmore hne
    have hdepth := hlong.depth
    rw [heq, depth_append, hshort.depth] at hdepth
    omega
  rcases List.append_eq_append_iff.mp heq with ⟨more, rfl, hmore⟩ | ⟨more, rfl, hmore⟩
  · obtain rfl := hfront h h' hne' hmore
    exact ⟨(List.append_nil _).symm, hmore⟩
  · obtain rfl := hfront h' h hne hmore
    exact ⟨List.append_nil _, hmore.symm⟩

/-- The last event of a node opens nothing. -/
theorem IsClosed.rise_last_le {front : List Event} {e : Event} (h : IsClosed (front ++ [e])) :
    e.rise ≤ 0 := by
  have hdepth := h.depth
  rw [depth_append, depth_cons, depth_nil, add_zero] at hdepth
  by_cases hnil : front = []
  · rw [hnil, depth_nil] at hdepth
    omega
  · have := h.inside front [e] rfl hnil (List.cons_ne_nil _ _)
    omega

/-! ## Closed nodes -/

/-- A node among events, with all of its own events. -/
structure HasNode (events before node after : List Event) : Prop where
  eq : events = before ++ (node ++ after)
  isNode : IsNode node

/-- A node among events that has an anchor. -/
structure Closes (events : List Event) (number : Nat) (before node after : List Event) : Prop
    extends HasNode events before node after where
  anchor : anchorOf node = some number

/-- Whether a node with an anchor has been closed. -/
def HasClosed (events : List Event) (number : Nat) : Prop :=
  ∃ before node after, Closes events number before node after

/-- The node with an anchor that was closed last. -/
structure ClosesLast (events : List Event) (number : Nat) (before node after : List Event) : Prop
    extends Closes events number before node after where
  latest : ∀ before' node' after', Closes events number before' node' after' →
    after.length ≤ after'.length

section concat

variable {events before node after : List Event} {number : Nat} {e : Event}

theorem HasNode.append (h : HasNode events before node after) (more : List Event) :
    HasNode (events ++ more) before node (after ++ more) where
  eq := by rw [h.eq, List.append_assoc, List.append_assoc]
  isNode := h.isNode

/-- With one more event there are the nodes from before, and those that end with it. -/
theorem HasNode.of_concat (h : HasNode (events ++ [e]) before node after) :
    after = [] ∨ ∃ after', after = after' ++ [e] ∧ HasNode events before node after' := by
  rcases List.eq_nil_or_concat after with rfl | ⟨after', e', rfl⟩
  · exact .inl rfl
  · have heq := h.eq
    rw [List.concat_eq_append, ← List.append_assoc, ← List.append_assoc] at heq
    obtain ⟨hevents, he⟩ := List.append_inj' heq rfl
    obtain rfl := List.singleton_inj.mp he
    refine .inr ⟨after', List.concat_eq_append, ?_, h.isNode⟩
    rw [hevents, List.append_assoc]

/-- No node ends with an event that opens a collection. -/
theorem HasNode.rise_le (h : HasNode (events ++ [e]) before node []) : e.rise ≤ 0 := by
  have heq := h.eq
  rw [List.append_nil] at heq
  obtain ⟨front, e', rfl⟩ := (List.eq_nil_or_concat node).resolve_left h.isNode.ne_nil
  rw [List.concat_eq_append, ← List.append_assoc] at heq
  obtain ⟨-, he⟩ := List.append_inj' heq rfl
  obtain rfl := List.singleton_inj.mp he
  exact (List.concat_eq_append ▸ h.isNode.isClosed).rise_last_le

/-- Of the nodes that end with the last event there is only one. -/
theorem HasNode.unique {before' node' : List Event} (h : HasNode events before node [])
    (h' : HasNode events before' node' []) : before = before' ∧ node = node' := by
  have heq := h.eq.symm.trans h'.eq
  rw [List.append_nil, List.append_nil] at heq
  exact h.isNode.isClosed.unique h'.isNode.isClosed h.isNode.ne_nil h'.isNode.ne_nil heq

theorem not_hasNode_nil : ¬ HasNode [] before node after := by
  intro h
  obtain ⟨-, hnil⟩ := List.append_eq_nil_iff.mp h.eq.symm
  exact h.isNode.ne_nil (List.append_eq_nil_iff.mp hnil).1

/-- A node that is closed with the last event is closed last. -/
theorem Closes.last (h : Closes events number before node []) :
    ClosesLast events number before node [] :=
  { h with latest := fun _ _ _ _ => Nat.zero_le _ }

/-- A node stays the last one if no other is closed. -/
theorem ClosesLast.concat (h : ClosesLast events number before node after)
    (hnot : ∀ before' node', ¬ Closes (events ++ [e]) number before' node' []) :
    ClosesLast (events ++ [e]) number before node (after ++ [e]) := by
  refine { h.append [e] with anchor := h.anchor, latest := ?_ }
  intro before' node' after' hcloses
  rcases hcloses.of_concat with rfl | ⟨after', rfl, hbefore⟩
  · exact absurd hcloses (hnot before' node')
  · have := h.latest before' node' after' ⟨hbefore, hcloses.anchor⟩
    rw [List.length_append, List.length_append]
    omega

/-- If no node with the anchor is closed with the last event, one was closed before. -/
theorem HasClosed.of_concat (h : HasClosed (events ++ [e]) number)
    (hnot : ∀ before' node', ¬ Closes (events ++ [e]) number before' node' []) :
    HasClosed events number := by
  obtain ⟨before, node, after, hcloses⟩ := h
  rcases hcloses.of_concat with rfl | ⟨after', -, hbefore⟩
  · exact absurd hcloses (hnot before node)
  · exact ⟨before, node, after', hbefore, hcloses.anchor⟩

end concat

/-! ## Aliases -/

/-- Whether each alias has the number of a node that has been closed before it. -/
def RefersBack (events : List Event) : Prop :=
  ∀ before number position after, events = before ++ ⟨.reference number, position⟩ :: after →
    HasClosed before number

end QueryBook.Yaml
