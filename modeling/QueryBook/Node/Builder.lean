import QueryBook.Comment.Margin
import QueryBook.Node
import QueryBook.Yaml.Event

/-!
# From events to a tree

The events of a document are read from left to right. Open collections lie on a stack; a node that
is complete goes to the innermost of them, and under its number to the table of anchors, from which
aliases take their copy.
-/

namespace QueryBook

open Yaml (Event EventKind Style)

/-- How a scalar of a style counts in the tree. -/
def ScalarStyle.ofStyle : Style → ScalarStyle
  | .plain => .plain
  | .singleQuoted | .doubleQuoted => .quoted
  | .literal | .folded => .block

/-- A collection whose end has not been met. -/
inductive OpenNode where
  /-- A sequence and its items so far, newest first. -/
  | sequence (position : Position) (anchor : Option Nat) (items : List Node)
  /-- A mapping, its pairs so far, newest first, and the key whose value is missing. -/
  | mapping (position : Position) (anchor : Option Nat) (pairs : List (Node × Node))
    (key : Option Node)

/-- The state between two events. -/
structure TreeBuilder where
  /-- The names of the anchors, by their number less one. -/
  anchorNames : List String
  /-- The source's lines, for comments. -/
  margin : Margin
  /-- The complete nodes with an anchor, by number, newest first. -/
  defined : List (Nat × Node) := []
  /-- The open collections, innermost first. -/
  stack : List OpenNode := []
  /-- The root, once it is complete. -/
  root : Option Node := none

namespace TreeBuilder

/-- The name of an anchor. -/
def anchorName? (b : TreeBuilder) (anchor : Option Nat) : Option String :=
  anchor.bind fun number => if number = 0 then none else b.anchorNames[number - 1]?

/-- What a node at a position has, comments included. -/
def commented (b : TreeBuilder) (position : Position) (anchor : Option Nat) : NodeInfo :=
  { position
    anchor := b.anchorName? anchor
    headComment := b.margin.head position.line position.column
    lineComment := b.margin.trailing position.line position.column }

/-- What a collection at a position has; comments belong to its first key or item. -/
def uncommented (b : TreeBuilder) (position : Position) (anchor : Option Nat) : NodeInfo :=
  { position, anchor := b.anchorName? anchor }

/-- Hands a complete node to the innermost open collection. -/
def complete (b : TreeBuilder) (anchor : Option Nat) (n : Node) : TreeBuilder :=
  let b :=
    match anchor with
    | some number => { b with defined := (number, n) :: b.defined }
    | none => b
  match b.stack with
  | [] => { b with root := some n }
  | .sequence position anchor items :: rest =>
    { b with stack := .sequence position anchor (n :: items) :: rest }
  | .mapping position anchor pairs none :: rest =>
    { b with stack := .mapping position anchor pairs (some n) :: rest }
  | .mapping position anchor pairs (some key) :: rest =>
    { b with stack := .mapping position anchor ((key, n) :: pairs) none :: rest }

/-- Opens a collection. -/
def openNode (b : TreeBuilder) (n : OpenNode) : TreeBuilder := { b with stack := n :: b.stack }

/-- Takes in the next event. -/
def step (b : TreeBuilder) (e : Event) : Except SchemaError TreeBuilder :=
  match e.kind with
  | .scalar text style anchor =>
    .ok (b.complete anchor (.scalar (b.commented e.position anchor) text (.ofStyle style)))
  | .reference number =>
    match b.defined.lookup number with
    | some target => .ok (b.complete none (.reference (b.commented e.position none) target))
    | none => .error { problem := .unknownAnchor, position := e.position }
  | .sequenceStart anchor => .ok (b.openNode (.sequence e.position anchor []))
  | .mappingStart anchor => .ok (b.openNode (.mapping e.position anchor [] none))
  | .sequenceEnd =>
    match b.stack with
    | .sequence position anchor items :: rest =>
      .ok ({ b with stack := rest }.complete anchor
        (.sequence (b.uncommented position anchor) items.reverse))
    | _ => .error { problem := .strayEnd "SequenceEnd", position := e.position }
  | .mappingEnd =>
    match b.stack with
    | .mapping position anchor pairs none :: rest =>
      .ok ({ b with stack := rest }.complete anchor
        (.mapping (b.uncommented position anchor) pairs.reverse))
    | _ => .error { problem := .strayEnd "MappingEnd", position := e.position }

/-- Takes in events one after the other. -/
def steps (b : TreeBuilder) (events : List Event) : Except SchemaError TreeBuilder :=
  events.foldlM step b

end TreeBuilder

/-- The tree of the events of one node. -/
def Node.ofEvents? (anchorNames : List String) (margin : Margin) (events : List Event) :
    Except SchemaError Node := do
  let b ← TreeBuilder.steps { anchorNames, margin } events
  match b.stack, b.root with
  | [], some n => .ok n
  | _, _ => .error { problem := .truncatedDocument, position := .unknown }

end QueryBook
