import QueryBook.Proofs.BuiltNodes
import QueryBook.Proofs.NodeEvents
import QueryBook.Proofs.WellNested
import Mathlib.Algebra.Group.Nat.Even

/-!
# The tree of well-nested events

The events of one node become one tree: the builder takes in all of them and no others, and the tree
taken apart gives them back. An alias becomes a copy of the node with its anchor that was closed
last; the first alias for which there is no such node is where building fails.

The proof follows the builder through the events. What it knows at any time is told by the events it
has taken in and by the nodes that they have become so far; a node is a sequence of steps that keeps
this account, whatever is open around it.
-/

namespace QueryBook

open Yaml

/-! ## Open collections -/

namespace OpenNode

/-- An open collection with one more node. -/
def add : OpenNode → Node → OpenNode
  | sequence position anchor items, n => sequence position anchor (n :: items)
  | mapping position anchor pairs none, n => mapping position anchor pairs (some n)
  | mapping position anchor pairs (some key), n => mapping position anchor ((key, n) :: pairs) none

/-- An open collection with more nodes, one after the other. -/
def addAll (f : OpenNode) (items : List Node) : OpenNode := items.foldl add f

/-- The items of a sequence are gathered. -/
theorem addAll_sequence (position : Position) (anchor : Option Nat) (items before : List Node) :
    (sequence position anchor before).addAll items =
      sequence position anchor (items.reverse ++ before) := by
  induction items generalizing before with
  | nil => rfl
  | cons n items ih =>
    rw [List.reverse_cons, List.append_assoc]
    exact ih (n :: before)

/-- An even number of nodes makes pairs of a mapping. -/
theorem addAll_mapping (position : Position) (anchor : Option Nat) :
    ∀ (items : List Node) (before : List (Node × Node)), Even items.length →
      ∃ pairs : List (Node × Node), (mapping position anchor before none).addAll items =
        mapping position anchor (pairs.reverse ++ before) none ∧
      items = pairs.flatMap fun p => [p.1, p.2]
  | [], before, _ => ⟨[], rfl, rfl⟩
  | [_], _, heven => absurd heven Nat.not_even_one
  | key :: value :: items, before, heven => by
    have hrest : Even items.length := by
      simpa [Nat.even_add_one] using heven
    obtain ⟨pairs, hadd, rfl⟩ := addAll_mapping position anchor items ((key, value) :: before) hrest
    refine ⟨(key, value) :: pairs, ?_, rfl⟩
    rw [List.reverse_cons, List.append_assoc]
    exact hadd

end OpenNode

namespace TreeBuilder

section complete

variable {b : TreeBuilder} {f : OpenNode} {outer : List OpenNode}

/-- A complete node is added to the innermost open collection. -/
theorem complete_of_stack (h : b.stack = f :: outer) (n : Node) :
    b.complete none n = { b with stack := f.add n :: outer } := by
  cases f with
  | sequence => simp only [complete, h, OpenNode.add]
  | mapping position anchor pairs key => cases key <;> simp only [complete, h, OpenNode.add]

/-- Handing on a node changes no anchor. -/
@[simp] theorem defined_complete (b : TreeBuilder) (n : Node) :
    (b.complete none n).defined = b.defined := by
  unfold complete
  dsimp only
  split <;> rfl

/-- Handing on a node changes no name. -/
@[simp] theorem anchorNames_complete (b : TreeBuilder) (n : Node) :
    (b.complete none n).anchorNames = b.anchorNames := by
  unfold complete
  dsimp only
  split <;> rfl

/-- Handing on a node opens and closes nothing. -/
@[simp] theorem length_stack_complete (b : TreeBuilder) (anchor : Option Nat) (n : Node) :
    (b.complete anchor n).stack.length = b.stack.length := by
  unfold complete
  cases anchor <;> dsimp only <;> split <;> simp [*]

end complete

/-! ## Consuming the events of a node -/

/-- Whether a builder takes in just these events for a node: with the last of them the node is
complete, and before that more collections are open than at the start. -/
structure Consumes (b : TreeBuilder) (events : List Event) (n : Node) : Prop where
  whole : ∃ defined, ∀ more, b.steps (events ++ more) =
    (({ b with defined } : TreeBuilder).complete none n).steps more
  inside : ∀ part rest, events = part ++ rest → part ≠ [] → rest ≠ [] →
    ∃ b', b.steps part = .ok b' ∧ b.stack.length < b'.stack.length

section consumes

variable {b b' : TreeBuilder} {events es : List Event} {e : Event}

/-- The number of open collections changes as the events say. -/
theorem length_stack_step (h : b.step e = .ok b') :
    (b'.stack.length : Int) = b.stack.length + e.rise := by
  unfold step at h
  unfold Event.rise
  split at h
  case h_1 hkind | h_3 hkind | h_4 hkind =>
    cases h
    simp [hkind, openNode]
  case h_2 hkind =>
    split at h
    · cases h
      simp [hkind]
    · cases h
  -- what is closed has to lie on top
  case h_5 hkind | h_6 hkind =>
    split at h
    · next hstack =>
      cases h
      simp [hkind, hstack]
    · cases h

/-- So it is with events one after the other. -/
theorem length_stack_steps (h : b.steps es = .ok b') :
    (b'.stack.length : Int) = b.stack.length + depth es := by
  induction es generalizing b with
  | nil =>
    cases h
    simp
  | cons e es ih =>
    rw [steps_cons, Reading.bind_eq_ok] at h
    obtain ⟨next, hnext, hrest⟩ := h
    rw [ih hrest, length_stack_step hnext, depth_cons, add_assoc]

/-- The events of a node are consumed if they are taken in. -/
theorem consumes_of_steps {defined : List (Nat × Node)} {n : Node} (h : IsNode events)
    (hsteps : b.steps events = .ok (({ b with defined } : TreeBuilder).complete none n)) :
    b.Consumes events n := by
  refine ⟨⟨defined, fun more => ?_⟩, ?_⟩
  · rw [steps_append, hsteps]
    rfl
  · intro part rest heq hpart hrest
    rw [heq, steps_append, Reading.bind_eq_ok] at hsteps
    obtain ⟨b', hb', -⟩ := hsteps
    refine ⟨b', hb', ?_⟩
    have hdepth := length_stack_steps hb'
    have hinside := h.isClosed.inside part rest heq hpart hrest
    omega

end consumes

/-! ## What a builder knows -/

/-- Whether the alias that comes behind some events is a copy of the node with its anchor that was
closed last, and has the name of that anchor. -/
def LeadsBack (start : TreeBuilder) (visits : List Visit) (events : List Event) (number : Nat) :
    Prop :=
  ∃ before node after info target, ClosesLast events number before node after ∧
    nodeAt? visits events.length = some (.reference info target) ∧
    nodeAt? visits before.length = some target ∧ target.anchor = start.anchorName? (some number)

/-- What a builder knows after events that have become nodes: its anchors are those of the nodes
closed last. -/
structure Knows (start b : TreeBuilder) (events : List Event) (visits : List Visit) : Prop where
  reached : start.steps events = .ok b
  names : b.anchorNames = start.anchorNames
  kept : visits.map (·.event) = events.map start.kept
  unknown : ∀ number, b.defined.lookup number = none → ¬ HasClosed events number
  known : ∀ number target, b.defined.lookup number = some target →
    target.anchor = start.anchorName? (some number) ∧
      ∃ before node after, ClosesLast events number before node after ∧
        nodeAt? visits before.length = some target
  consumes : ∀ before node after, HasNode events before node after → ∃ b n,
    start.steps before = .ok b ∧ b.Consumes node n ∧ nodeAt? visits before.length = some n
  references : ∀ before number position after,
    events = before ++ ⟨.reference number, position⟩ :: after → start.LeadsBack visits before number

namespace LeadsBack

variable {start : TreeBuilder} {visits visits' : List Visit} {events : List Event} {number : Nat}

/-- A copy stays one while nodes are filled in. -/
theorem mono (h : start.LeadsBack visits events number)
    (hgrows : ∀ place n, nodeAt? visits place = some n → nodeAt? visits' place = some n) :
    start.LeadsBack visits' events number := by
  obtain ⟨before, node, after, info, target, hlast, halias, htarget, hname⟩ := h
  exact ⟨before, node, after, info, target, hlast, hgrows _ _ halias, hgrows _ _ htarget, hname⟩

/-- There is a node to lead back to. -/
theorem hasClosed (h : start.LeadsBack visits events number) : HasClosed events number := by
  obtain ⟨before, node, after, -, -, hlast, -⟩ := h
  exact ⟨before, node, after, hlast.toCloses⟩

end LeadsBack

namespace Knows

variable {start b b' : TreeBuilder} {events es pre : List Event} {visits visits' : List Visit}
  {e : Event}

/-- All aliases so far refer back. -/
theorem refersBack (h : Knows start b events visits) : RefersBack events :=
  fun before number position after heq => (h.references before number position after heq).hasClosed

/-- What a node has is what it would have had at the start. -/
theorem anchorName?_eq (h : Knows start b events visits) (anchor : Option Nat) :
    b.anchorName? anchor = start.anchorName? anchor := by
  unfold anchorName?
  rw [h.names]

/-- What is kept of an event is what would have been kept at the start. -/
theorem kept_eq (h : Knows start b events visits) : b.kept = start.kept := by
  funext e
  unfold TreeBuilder.kept
  simp only [h.anchorName?_eq]

/-- Each event has its place. -/
theorem length_eq (h : Knows start b events visits) : visits.length = events.length := by
  rw [← List.length_map (·.event), h.kept, List.length_map]

/-- At the start nothing is known. -/
theorem nil (b : TreeBuilder) (h : b.defined = []) : Knows b b [] [] where
  reached := rfl
  names := rfl
  kept := rfl
  unknown := by
    rintro number - ⟨before, node, after, hcloses⟩
    exact not_hasNode_nil hcloses.toHasNode
  known := by
    intro number target hlookup
    rw [h] at hlookup
    cases hlookup
  consumes := fun before node after hnode => absurd hnode not_hasNode_nil
  references := by
    intro before number position after heq
    exact absurd heq.symm (by simp)

/-- One more event is taken in. -/
theorem reached_concat (h : Knows start b events visits) (hstep : b.step e = .ok b') :
    start.steps (events ++ [e]) = .ok b' := by
  rw [steps_append, h.reached]
  change b.steps [e] = .ok b'
  rw [steps_cons, hstep]
  rfl

/-- What is known of aliases, with one more event. -/
theorem references_concat (h : Knows start b events visits)
    (hgrows : ∀ place n, nodeAt? visits place = some n → nodeAt? visits' place = some n)
    (hlast : ∀ number position, e = ⟨.reference number, position⟩ →
      start.LeadsBack visits' events number)
    (before : List Event) (number : Nat) (position : Position) (after : List Event)
    (heq : events ++ [e] = before ++ ⟨.reference number, position⟩ :: after) :
    start.LeadsBack visits' before number := by
  rcases List.eq_nil_or_concat after with rfl | ⟨after', e', rfl⟩
  · obtain ⟨rfl, he⟩ := List.append_inj' heq rfl
    exact hlast number position (List.singleton_inj.mp he)
  · rw [List.concat_eq_append, ← List.cons_append, ← List.append_assoc] at heq
    obtain ⟨hevents, -⟩ := List.append_inj' heq rfl
    exact (h.references before number position after' hevents).mono hgrows

/-- A collection that is opened changes nothing that is known. -/
theorem open_concat (h : Knows start b events visits) (hrise : 0 < e.rise) {f : OpenNode}
    (hstep : b.step e = .ok (b.openNode f)) :
    Knows start (b.openNode f) (events ++ [e]) (visits ++ [⟨start.kept e, none⟩]) := by
  have hnot : ∀ before node, ¬ HasNode (events ++ [e]) before node [] := by
    intro before node hnode
    have := hnode.rise_le
    omega
  have hgrows : ∀ place n, nodeAt? visits place = some n →
      nodeAt? (visits ++ [⟨start.kept e, none⟩]) place = some n :=
    fun place n hn => nodeAt?_append hn _
  refine ⟨h.reached_concat hstep, h.names, by simp [h.kept], ?_, ?_, ?_,
    h.references_concat hgrows ?_⟩
  · intro number hlookup hcloses
    exact h.unknown number hlookup
      (hcloses.of_concat fun before node hcloses => hnot before node hcloses.toHasNode)
  · intro number target hlookup
    obtain ⟨hanchor, before, node, after, hlast, hplace⟩ := h.known number target hlookup
    exact ⟨hanchor, before, node, after ++ [e],
      hlast.concat fun before node hcloses => hnot before node hcloses.toHasNode,
      hgrows _ _ hplace⟩
  · intro before node after hnode
    rcases hnode.of_concat with rfl | ⟨after', -, hbefore⟩
    · exact absurd hnode (hnot before node)
    · obtain ⟨b, n, hsteps, hconsumes, hplace⟩ := h.consumes before node after' hbefore
      exact ⟨b, n, hsteps, hconsumes, hgrows _ _ hplace⟩
  · rintro number position rfl
    exact absurd hrise (lt_irrefl 0)

/-- A node that is closed is noted under its anchor. -/
theorem node_concat {b₀ : TreeBuilder} {visits₀ : List Visit} (h₀ : Knows start b₀ pre visits₀)
    (h : Knows start b events visits) (hes : IsNode es) (heq : events ++ [e] = pre ++ es) {n : Node}
    (hstep : b.step e = .ok
      (({ b₀ with defined := define b.defined (anchorOf es) n } : TreeBuilder).complete none n))
    (hanchor : n.anchor = start.anchorName? (anchorOf es))
    (hkept : visits'.map (·.event) = (events ++ [e]).map start.kept)
    (hgrows : ∀ place n, nodeAt? visits place = some n → nodeAt? visits' place = some n)
    (hplace : nodeAt? visits' pre.length = some n)
    (hlast : ∀ number position, e = ⟨.reference number, position⟩ →
      start.LeadsBack visits' events number) :
    Knows start
      (({ b₀ with defined := define b.defined (anchorOf es) n } : TreeBuilder).complete none n)
      (events ++ [e]) visits' := by
  have hnode : HasNode (events ++ [e]) pre es [] := ⟨by rw [List.append_nil]; exact heq, hes⟩
  -- the only node that is closed with the event is the one at hand
  have hnot : ∀ number, anchorOf es ≠ some number →
      ∀ before node, ¬ Closes (events ++ [e]) number before node [] := by
    intro number hne before node hcloses
    obtain ⟨-, rfl⟩ := hcloses.unique hnode
    exact hne hcloses.anchor
  have hreached := h.reached_concat hstep
  refine ⟨hreached, ?_, hkept, ?_, ?_, ?_, h.references_concat hgrows hlast⟩
  · rw [anchorNames_complete]
    exact h₀.names
  · intro number hnone hcloses
    rw [defined_complete] at hnone
    by_cases hnumber : anchorOf es = some number
    · rw [hnumber, lookup_define_self] at hnone
      cases hnone
    · rw [lookup_define_of_ne hnumber] at hnone
      exact h.unknown number hnone (hcloses.of_concat (hnot number hnumber))
  · intro number target hsome
    rw [defined_complete] at hsome
    by_cases hnumber : anchorOf es = some number
    · rw [hnumber, lookup_define_self] at hsome
      cases hsome
      have hcloses : Closes (events ++ [e]) number pre es [] := ⟨hnode, hnumber⟩
      exact ⟨by rw [hanchor, hnumber], pre, es, [], hcloses.last, hplace⟩
    · rw [lookup_define_of_ne hnumber] at hsome
      obtain ⟨hname, before, node, after, hlatest, hbefore⟩ := h.known number target hsome
      exact ⟨hname, before, node, after ++ [e], hlatest.concat (hnot number hnumber),
        hgrows _ _ hbefore⟩
  · intro before node after hhas
    rcases hhas.of_concat with rfl | ⟨after', -, hbefore⟩
    · obtain ⟨rfl, rfl⟩ := hhas.unique hnode
      rw [heq, steps_append, h₀.reached] at hreached
      exact ⟨b₀, n, h₀.reached, consumes_of_steps hes hreached, hplace⟩
    · obtain ⟨b, n, hsteps, hconsumes, hbegins⟩ := h.consumes before node after' hbefore
      exact ⟨b, n, hsteps, hconsumes, hgrows _ _ hbegins⟩

end Knows

/-! ## Taking in nodes -/

/-- What comes of more events: they are taken in, or only as far as the first alias that does not
refer back. -/
inductive Outcome (start b : TreeBuilder) (events more : List Event)
    (good : TreeBuilder → List Visit → Prop) : Prop
  | taken {b' : TreeBuilder} {visits : List Visit} (hsteps : b.steps more = .ok b')
      (hknows : Knows start b' (events ++ more) visits) (hgood : good b' visits)
  | stuck {before : List Event} {number : Nat} {position : Position} {after : List Event}
      (heq : more = before ++ ⟨.reference number, position⟩ :: after)
      (hrefers : RefersBack (events ++ before)) (hunknown : ¬ HasClosed (events ++ before) number)
      (hsteps : b.steps more = .error { problem := .unknownAnchor, position })

section outcome

variable {start b b' : TreeBuilder} {events es es' : List Event} {visits visits' : List Visit}
  {good good' : TreeBuilder → List Visit → Prop} {e : Event}

theorem Outcome.append (h : Outcome start b events es good)
    (h' : ∀ b' visits, Knows start b' (events ++ es) visits → good b' visits →
      Outcome start b' (events ++ es) es' good') :
    Outcome start b events (es ++ es') good' := by
  cases h with
  | taken hsteps hknows hgood =>
    cases h' _ _ hknows hgood with
    | taken hsteps' hknows' hgood' =>
      rw [List.append_assoc] at hknows'
      exact .taken (by rw [steps_append, hsteps]; exact hsteps') hknows' hgood'
    | stuck heq hrefers hunknown hsteps' =>
      rw [List.append_assoc] at hrefers hunknown
      exact .stuck (by rw [heq, List.append_assoc]) hrefers hunknown
        (by rw [steps_append, hsteps]; exact hsteps')
  | stuck heq hrefers hunknown hsteps =>
    exact .stuck (by rw [heq, List.append_assoc, List.cons_append]) hrefers hunknown
      (by rw [steps_append, hsteps]; rfl)

/-- An outcome that is good for one purpose is so for others. -/
theorem Outcome.imp (h : Outcome start b events es good)
    (himp : ∀ b' visits, good b' visits → good' b' visits) : Outcome start b events es good' := by
  cases h with
  | taken hsteps hknows hgood => exact .taken hsteps hknows (himp _ _ hgood)
  | stuck heq hrefers hunknown hsteps => exact .stuck heq hrefers hunknown hsteps

/-- One event that is taken in. -/
theorem Outcome.single (hstep : b.step e = .ok b') (hknows : Knows start b' (events ++ [e]) visits)
    (hgood : good b' visits) : Outcome start b events [e] good :=
  .taken (by rw [steps_cons, hstep]; rfl) hknows hgood

/-- Whether events become one node, whatever is open around them. -/
def Builds (start : TreeBuilder) (es : List Event) : Prop :=
  ∀ b events visits, Knows start b events visits →
    Outcome start b events es fun b' visits' => ∃ n defined,
      b' = ({ b with defined } : TreeBuilder).complete none n ∧ visits' = visits ++ n.visits

/-- A scalar becomes a node. -/
theorem builds_scalar (start : TreeBuilder) (text : String) (style : Style) (anchor : Option Nat)
    (position : Position) : Builds start [⟨.scalar text style anchor, position⟩] := by
  intro b events visits hknows
  let n := Node.scalar (b.commented position anchor) text (.ofStyle style)
  have hstep : b.step ⟨.scalar text style anchor, position⟩ = .ok (b.complete anchor n) := rfl
  rw [complete_eq] at hstep
  have hvisits : n.visits = [⟨start.kept ⟨.scalar text style anchor, position⟩, some n⟩] := by
    rw [← hknows.kept_eq]
    rfl
  refine .single hstep ?_ ⟨n, _, rfl, rfl⟩
  refine hknows.node_concat hknows .scalar rfl hstep (hknows.anchorName?_eq anchor) ?_ ?_ ?_ nofun
  · simp [hvisits, hknows.kept]
  · exact fun place m hm => nodeAt?_append hm _
  · rw [hvisits, ← hknows.length_eq]
    exact nodeAt?_length []

/-- An alias becomes a node if a node with its number has been closed. -/
theorem builds_reference (start : TreeBuilder) (number : Nat) (position : Position) :
    Builds start [⟨.reference number, position⟩] := by
  intro b events visits hknows
  -- a number is known once its node is closed, so inside of the node it is not
  cases hlookup : b.defined.lookup number with
  | none =>
    have hstep : b.step ⟨.reference number, position⟩ =
        .error { problem := .unknownAnchor, position } := by
      simp only [step, hlookup]
    have hfirst : [⟨.reference number, position⟩] =
        ([] : List Event) ++ ⟨.reference number, position⟩ :: [] := rfl
    refine .stuck hfirst ?_ ?_ (by rw [steps_cons, hstep]; rfl)
    · rw [List.append_nil]
      exact hknows.refersBack
    · rw [List.append_nil]
      exact hknows.unknown number hlookup
  | some target =>
    let n := Node.reference (b.commented position none) target
    have hstep : b.step ⟨.reference number, position⟩ = .ok (b.complete none n) := by
      simp only [step, hlookup]
      rfl
    obtain ⟨hname, before, node, after, hlast, htarget⟩ := hknows.known number target hlookup
    have hvisits : n.visits = [⟨start.kept ⟨.reference number, position⟩, some n⟩] := by
      change [Visit.mk (.reference position target.anchor) (some n)] = _
      rw [hname]
      rfl
    have hplace : nodeAt? (visits ++ n.visits) events.length = some n := by
      rw [hvisits, ← hknows.length_eq]
      exact nodeAt?_length []
    refine .single hstep ?_ ⟨n, _, rfl, rfl⟩
    refine hknows.node_concat hknows .reference rfl hstep rfl ?_ ?_ hplace ?_
    · simp [hvisits, hknows.kept]
    · exact fun place m hm => nodeAt?_append hm _
    · rintro number' position' heq
      cases heq
      exact ⟨before, node, after, _, target, hlast, hplace, nodeAt?_append htarget _, hname⟩

/-- Nodes one after the other are added to the innermost open collection. -/
theorem outcome_flatten {children : List (List Event)} (h : ∀ es ∈ children, Builds start es)
    {f : OpenNode} {outer : List OpenNode} (hknows : Knows start b events visits)
    (hstack : b.stack = f :: outer) :
    Outcome start b events children.flatten fun b' visits' => ∃ items defined,
      items.length = children.length ∧
        b' = { b with defined, stack := f.addAll items :: outer } ∧
        visits' = visits ++ items.flatMap Node.visits := by
  induction children generalizing b events visits f with
  | nil =>
    have hsame : b = { b with stack := f :: outer } := by rw [← hstack]
    exact .taken rfl (by rw [List.flatten_nil, List.append_nil]; exact hknows)
      ⟨[], b.defined, rfl, hsame, (List.append_nil _).symm⟩
  | cons es children ih =>
    obtain ⟨hes, hchildren⟩ := List.forall_mem_cons.mp h
    refine (hes b events visits hknows).append ?_
    rintro b' visits' hknows' ⟨n, defined, rfl, rfl⟩
    have hadd := complete_of_stack (b := { b with defined }) hstack n
    rw [hadd] at hknows' ⊢
    refine (ih hchildren hknows' rfl).imp ?_
    rintro b' visits' ⟨items, defined', hlength, rfl, rfl⟩
    refine ⟨n :: items, defined', congrArg (· + 1) hlength, rfl, ?_⟩
    rw [List.flatMap_cons, List.append_assoc]

/-- A collection of nodes becomes a node. -/
theorem builds_collection {first last : Event} {children : List (List Event)} {f : OpenNode}
    {anchor : Option Nat} (hchildren : ∀ es ∈ children, Builds start es)
    (hnode : IsNode (first :: (children.flatten ++ [last]))) (hfirst : first.rise = 1)
    (hlast : last.rise = -1) (hanchor : first.anchor? = anchor)
    (hopen : ∀ b : TreeBuilder, b.step first = .ok (b.openNode f))
    (hclose : ∀ (b : TreeBuilder) (items : List Node) (outer : List OpenNode),
      items.length = children.length → b.stack = f.addAll items :: outer → ∃ n,
        b.step last = .ok (({ b with stack := outer } : TreeBuilder).complete anchor n) ∧
        n.anchor = b.anchorName? anchor ∧
        n.visits = ⟨b.kept first, some n⟩ ::
          (items.flatMap Node.visits ++ [⟨b.kept last, none⟩])) :
    Builds start (first :: (children.flatten ++ [last])) := by
  intro b events visits hknows
  -- the first event opens the node, the children are added to it, and the last one closes it
  have hopened : Knows start (b.openNode f) (events ++ [first])
      (visits ++ [⟨start.kept first, none⟩]) :=
    hknows.open_concat (by omega) (hopen b)
  have houtcome : Outcome start b events [first] fun b' visits' =>
      b' = b.openNode f ∧ visits' = visits ++ [⟨start.kept first, none⟩] :=
    .single (hopen b) hopened ⟨rfl, rfl⟩
  refine houtcome.append ?_
  rintro _ _ - ⟨rfl, rfl⟩
  refine (outcome_flatten hchildren hopened rfl).append ?_
  rintro inside _ hinside ⟨items, defined, hlength, hstate, rfl⟩
  obtain ⟨n, hstep, hname, hvisits⟩ := hclose inside items b.stack hlength (by rw [hstate])
  rw [complete_eq] at hstep
  rw [hinside.kept_eq] at hvisits
  rw [hinside.anchorName?_eq] at hname
  have hdone : ({ inside with
        defined := define inside.defined anchor n, stack := b.stack } : TreeBuilder) =
      { b with defined := define inside.defined anchor n } := by
    rw [hstate]
    rfl
  have heq : events ++ [first] ++ children.flatten ++ [last] =
      events ++ (first :: (children.flatten ++ [last])) := by simp
  obtain rfl : anchorOf (first :: (children.flatten ++ [last])) = anchor := hanchor
  rw [hdone] at hstep
  refine .single hstep ?_ ⟨n, _, rfl, rfl⟩
  refine hknows.node_concat hinside hnode heq hstep hname ?_ ?_ ?_ ?_
  · rw [List.map_append, List.map_append, ← hinside.kept]
    simp [hvisits]
  · intro place m hm
    rw [hvisits]
    rw [List.append_assoc] at hm
    exact nodeAt?_fill hm _
  · rw [hvisits, ← hknows.length_eq]
    exact nodeAt?_length _
  · rintro number position rfl
    cases hlast

/-- The events of a node become a node. -/
theorem builds_of_isNode (start : TreeBuilder) (h : IsNode es) : Builds start es := by
  induction h with
  | scalar => exact builds_scalar start _ _ _ _
  | reference => exact builds_reference start _ _
  | @sequence anchor position last children hchildren ih =>
    have hanchor : Event.anchor? ⟨.sequenceStart anchor, position⟩ = anchor := rfl
    refine builds_collection (f := .sequence position anchor []) ih (.sequence hchildren) rfl rfl
      hanchor (fun b => rfl) ?_
    intro b items outer _ hstack
    rw [OpenNode.addAll_sequence, List.append_nil] at hstack
    refine ⟨.sequence (b.uncommented position anchor) items, ?_, rfl, ?_⟩
    · simp only [step, hstack, List.reverse_reverse]
    · rw [Node.visits, Node.visitsOfItems_eq_flatMap]
      rfl
  | @mapping anchor position last children hchildren heven ih =>
    have hanchor : Event.anchor? ⟨.mappingStart anchor, position⟩ = anchor := rfl
    refine builds_collection (f := .mapping position anchor [] none) ih (.mapping hchildren heven)
      rfl rfl hanchor (fun b => rfl) ?_
    intro b items outer hlength hstack
    obtain ⟨pairs, hadd, rfl⟩ := OpenNode.addAll_mapping position anchor items [] (hlength ▸ heven)
    rw [hadd, List.append_nil] at hstack
    refine ⟨.mapping (b.uncommented position anchor) pairs, ?_, rfl, ?_⟩
    · simp only [step, hstack, List.reverse_reverse]
    · rw [Node.visits, Node.visitsOfPairs_eq_flatMap]
      rfl

end outcome

end TreeBuilder

/-! ## Faithful trees -/

/-- Whether a tree is faithful to events. Taken apart it gives them back; each node among them has
been built from just its own events, and begins where they do; and each alias is a copy of the node
with its anchor that was closed last. -/
structure Node.IsFaithful (start : TreeBuilder) (events : List Event) (root : Node) : Prop where
  flatten : root.flatten = events.map start.kept
  consumes : ∀ before node after, HasNode events before node after → ∃ b n,
    start.steps before = .ok b ∧ b.Consumes node n ∧ nodeAt? root.visits before.length = some n
  references : ∀ before number position after,
    events = before ++ ⟨.reference number, position⟩ :: after →
      start.LeadsBack root.visits before number

open TreeBuilder in
/-- The events of a node become a tree that is faithful to them if all aliases refer back to nodes
that are closed. Otherwise building fails at the first alias that does not. -/
theorem Node.ofEvents?_of_isNode (names : List String) (margin : Margin) {events : List Event}
    (h : IsNode events) :
    (RefersBack events → ∃ root, Node.ofEvents? names margin events = .ok root ∧
      root.IsFaithful { anchorNames := names, margin } events) ∧
    (¬ RefersBack events → ∃ before number position after,
      events = before ++ ⟨.reference number, position⟩ :: after ∧
      RefersBack before ∧ ¬ HasClosed before number ∧
      ∃ e : SchemaError, Node.ofEvents? names margin events = .error e ∧ e.position = position ∧
        e.problem = .unknownAnchor ∧ e.problem.kind = .structural) := by
  let start : TreeBuilder := { anchorNames := names, margin }
  cases builds_of_isNode start h start [] [] (.nil start rfl) with
  | taken hsteps hknows hgood =>
    obtain ⟨root, defined, rfl, rfl⟩ := hgood
    refine ⟨fun _ => ⟨root, ?_, ⟨hknows.kept, hknows.consumes, hknows.references⟩⟩,
      fun hnot => absurd hknows.refersBack hnot⟩
    unfold Node.ofEvents?
    rw [hsteps]
    rfl
  | stuck heq hrefers hunknown hsteps =>
    refine ⟨fun hall => absurd (hall _ _ _ _ heq) hunknown,
      fun _ => ⟨_, _, _, _, heq, hrefers, hunknown,
        { problem := .unknownAnchor, position := _ }, ?_, rfl, rfl, rfl⟩⟩
    unfold Node.ofEvents?
    rw [hsteps]
    rfl

open TreeBuilder in
/-- An alias behind its anchor is kept, and an alias inside of its own anchor is refused. -/
theorem Node.ofEvents?_of_anchored_sequence :
    (∃ root, Node.ofEvents? ["a"] ⟨[], []⟩
        [⟨.sequenceStart none, ⟨1, 1⟩⟩, ⟨.scalar "x" .plain (some 1), ⟨1, 3⟩⟩,
          ⟨.reference 1, ⟨2, 3⟩⟩, ⟨.sequenceEnd, ⟨3, 1⟩⟩] = .ok root ∧
      root.flatten = [.sequenceStart ⟨1, 1⟩ none, .scalar ⟨1, 3⟩ "x" .plain (some "a"),
        .reference ⟨2, 3⟩ (some "a"), .sequenceEnd]) ∧
    ∃ e : SchemaError, Node.ofEvents? ["a"] ⟨[], []⟩
        [⟨.sequenceStart (some 1), ⟨1, 1⟩⟩, ⟨.reference 1, ⟨2, 3⟩⟩, ⟨.sequenceEnd, ⟨3, 1⟩⟩] =
          .error e ∧ e.position = ⟨2, 3⟩ := by
  constructor
  · have hchildren : ∀ es ∈ [[⟨.scalar "x" .plain (some 1), ⟨1, 3⟩⟩],
        [(⟨.reference 1, ⟨2, 3⟩⟩ : Event)]], IsNode es := by
      simpa using ⟨.scalar, .reference⟩
    have hnode := @IsNode.sequence none ⟨1, 1⟩ ⟨3, 1⟩ _ hchildren
    have hkept := (Node.ofEvents?_of_isNode ["a"] ⟨[], []⟩ hnode).1
    refine (hkept ?_).imp fun root h => ⟨h.1, h.2.flatten⟩
    intro before number position after heq
    rcases before with _ | ⟨e₁, _ | ⟨e₂, _ | ⟨e₃, _ | ⟨e₄, before⟩⟩⟩⟩ <;> simp at heq
    obtain ⟨rfl, rfl, ⟨rfl, rfl⟩, rfl⟩ := heq
    exact ⟨[_], [_], [], ⟨rfl, .scalar⟩, rfl⟩
  · have hchildren : ∀ es ∈ [[(⟨.reference 1, ⟨2, 3⟩⟩ : Event)]], IsNode es := by
      simpa using .reference
    have hnot : ¬ HasClosed [⟨.sequenceStart (some 1), ⟨1, 1⟩⟩] 1 := by
      rintro ⟨before, node, after, hcloses⟩
      rcases @HasNode.of_concat [] _ _ _ _ hcloses.toHasNode with rfl | ⟨after, -, hnone⟩
      · exact absurd (@HasNode.rise_le [] _ _ _ hcloses.toHasNode) (by decide)
      · exact not_hasNode_nil hnone
    have hnode := @IsNode.sequence (some 1) ⟨1, 1⟩ ⟨3, 1⟩ _ hchildren
    have hrefused := (Node.ofEvents?_of_isNode ["a"] ⟨[], []⟩ hnode).2
    obtain ⟨before, number, position, after, heq, -, -, e, he, hposition, -⟩ :=
      hrefused fun hrefers => hnot (hrefers [_] 1 ⟨2, 3⟩ [⟨.sequenceEnd, ⟨3, 1⟩⟩] rfl)
    refine ⟨e, he, ?_⟩
    rcases before with _ | ⟨e₁, _ | ⟨e₂, _ | ⟨e₃, before⟩⟩⟩ <;> simp at heq
    rw [hposition, heq.2.1.2]

end QueryBook
