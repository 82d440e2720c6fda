import QueryBook.Node.Builder

/-!
# The events of a tree

A tree is taken apart into the events it stands for, and each event is kept together with the node
that begins with it. An alias is one event: the copy it owns is not taken apart again. The tree
knows less than the events it is built from: anchors have names instead of numbers, the two kinds of
quotes and of blocks are one each, and the end of a collection has no position.
-/

namespace QueryBook

open Yaml (Event)

/-- An event as far as a tree keeps it. -/
inductive TreeEvent where
  | scalar (position : Position) (text : String) (style : ScalarStyle) (anchor : Option String)
  /-- An alias, by the name of its anchor. -/
  | reference (position : Position) (name : Option String)
  | sequenceStart (position : Position) (anchor : Option String)
  | sequenceEnd
  | mappingStart (position : Position) (anchor : Option String)
  | mappingEnd
  deriving DecidableEq

/-- An event of a tree, and the node that begins with it. -/
structure Visit where
  event : TreeEvent
  node : Option Node := none

/-! ## Flattening -/

namespace Node

mutual

/-- The events of a tree, from left to right. -/
def visits : Node → List Visit
  | scalar info value style =>
    [⟨.scalar info.position value style info.anchor, some (scalar info value style)⟩]
  | mapping info pairs =>
    ⟨.mappingStart info.position info.anchor, some (mapping info pairs)⟩ ::
      (visitsOfPairs pairs ++ [⟨.mappingEnd, none⟩])
  | sequence info items =>
    ⟨.sequenceStart info.position info.anchor, some (sequence info items)⟩ ::
      (visitsOfItems items ++ [⟨.sequenceEnd, none⟩])
  | reference info target =>
    [⟨.reference info.position target.anchor, some (reference info target)⟩]

/-- The events of the items of a sequence. -/
def visitsOfItems : List Node → List Visit
  | [] => []
  | n :: rest => n.visits ++ visitsOfItems rest

/-- The events of the pairs of a mapping, keys and values in turn. -/
def visitsOfPairs : List (Node × Node) → List Visit
  | [] => []
  | (key, value) :: rest => key.visits ++ (value.visits ++ visitsOfPairs rest)

end

/-- The events of a tree without its nodes. -/
def flatten (root : Node) : List TreeEvent := root.visits.map (·.event)

/-- Items are taken apart one after the other. -/
theorem visitsOfItems_eq_flatMap (items : List Node) :
    visitsOfItems items = items.flatMap visits := by
  induction items with
  | nil => rfl
  | cons n rest ih => rw [visitsOfItems, ih, List.flatMap_cons]

/-- So are keys and values. -/
theorem visitsOfPairs_eq_flatMap (pairs : List (Node × Node)) :
    visitsOfPairs pairs = (pairs.flatMap fun p => [p.1, p.2]).flatMap visits := by
  induction pairs with
  | nil => rfl
  | cons p rest ih => simp [visitsOfPairs, ih]

end Node

/-! ## Nodes by their places -/

/-- The node that begins with the event at a place. -/
def nodeAt? (visits : List Visit) (place : Nat) : Option Node := visits[place]?.bind (·.node)

section nodeAt

variable {visits inner : List Visit} {place : Nat} {e : TreeEvent} {n : Node} {m : Option Node}

theorem nodeAt?_append (h : nodeAt? visits place = some n) (more : List Visit) :
    nodeAt? (visits ++ more) place = some n := by
  obtain ⟨v, hv, hn⟩ := Option.bind_eq_some_iff.mp h
  obtain ⟨hplace, -⟩ := List.getElem?_eq_some_iff.mp hv
  rw [nodeAt?, List.getElem?_append_left hplace]
  exact h

/-- The node that begins behind some events. -/
theorem nodeAt?_length (rest : List Visit) :
    nodeAt? (visits ++ ⟨e, some n⟩ :: rest) visits.length = some n := by
  rw [nodeAt?, List.getElem?_append_right (Nat.le_refl _), Nat.sub_self]
  rfl

/-- That a collection is complete does not change which other nodes begin at a place. -/
theorem nodeAt?_fill (h : nodeAt? (visits ++ ⟨e, none⟩ :: inner) place = some n) (more : List Visit) :
    nodeAt? (visits ++ ⟨e, m⟩ :: (inner ++ more)) place = some n := by
  rcases Nat.lt_or_ge place visits.length with hplace | hplace
  · rw [nodeAt?, List.getElem?_append_left hplace] at h ⊢
    exact h
  · rw [nodeAt?, List.getElem?_append_right hplace] at h ⊢
    -- at the place of the collection itself no node has begun
    cases hoffset : place - visits.length with
    | zero =>
      rw [hoffset] at h
      cases h
    | succ offset =>
      rw [hoffset] at h
      rw [List.getElem?_cons_succ] at h ⊢
      exact nodeAt?_append h more

end nodeAt

/-! ## What is kept of an event -/

/-- What a tree keeps of an event. -/
def TreeBuilder.kept (b : TreeBuilder) (e : Event) : TreeEvent :=
  match e.kind with
  | .scalar text style anchor => .scalar e.position text (.ofStyle style) (b.anchorName? anchor)
  | .reference number => .reference e.position (b.anchorName? (some number))
  | .sequenceStart anchor => .sequenceStart e.position (b.anchorName? anchor)
  | .sequenceEnd => .sequenceEnd
  | .mappingStart anchor => .mappingStart e.position (b.anchorName? anchor)
  | .mappingEnd => .mappingEnd

end QueryBook
