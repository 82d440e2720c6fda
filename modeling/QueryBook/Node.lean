import QueryBook.SchemaError

/-!
# Document nodes

The tree of a document: scalars, mappings, sequences and aliases, each with its position, the
anchor it defines and the comments written around it. An alias owns a copy of the node it refers to.
-/

namespace QueryBook

/-- How a scalar was written. -/
inductive ScalarStyle where
  | plain
  | quoted
  /-- A literal or folded block. -/
  | block
  deriving DecidableEq

/-- What every node has, whatever its shape. -/
structure NodeInfo where
  /-- Where the node starts. -/
  position : Position
  /-- The anchor defined on the node. -/
  anchor : Option String := none
  /-- The raw comment lines directly above the node. -/
  headComment : String := ""
  /-- The raw comment trailing the node on its line. -/
  lineComment : String := ""
  deriving DecidableEq

/-- A node of the document tree. -/
inductive Node where
  | scalar (info : NodeInfo) (value : String) (style : ScalarStyle)
  | mapping (info : NodeInfo) (pairs : List (Node × Node))
  | sequence (info : NodeInfo) (items : List Node)
  /-- An alias. -/
  | reference (info : NodeInfo) (target : Node)

namespace Node

instance : Inhabited Node := ⟨.scalar ⟨.unknown, none, "", ""⟩ "" .plain⟩

/-- Position, anchor and comments of a node. -/
def info : Node → NodeInfo
  | scalar info .. | mapping info _ | sequence info _ | reference info _ => info

/-- Where a node starts. -/
def position (n : Node) : Position := n.info.position

/-- The anchor defined on a node. -/
def anchor (n : Node) : Option String := n.info.anchor

/-- The shape of a node. -/
def shape : Node → NodeShape
  | scalar .. => .scalar
  | mapping .. => .mapping
  | sequence .. => .sequence
  | reference .. => .reference

/-- The plain scalars that stand for "no value". -/
def isNullText (value : String) : Bool :=
  value = "~" || value = "null" || value = "Null" || value = "NULL"

/-- The text of a scalar; empty for nulls and for other shapes. -/
def text : Node → String
  | scalar _ value .plain => if isNullText value then "" else value
  | scalar _ value _ => value
  | _ => ""

/-- The node itself, or the node an alias leads to. -/
def resolve : Node → Node
  | reference _ target => target.resolve
  | node => node

/-- The anchor of the node an alias refers to. -/
def aliasOf : Node → Option String
  | reference _ target => target.anchor
  | _ => none

/-- Whether a node is a scalar. -/
def isScalar (n : Node) : Bool := n.shape = .scalar

/-- The pairs of a mapping. -/
def pairs? : Node → Option (List (Node × Node))
  | mapping _ pairs => some pairs
  | _ => none

/-- Following aliases ends at a node that is none. -/
theorem shape_resolve_ne_reference : ∀ n : Node, n.resolve.shape ≠ .reference
  | scalar .. => by simp [resolve, shape]
  | mapping .. => by simp [resolve, shape]
  | sequence .. => by simp [resolve, shape]
  | reference _ target => by rw [resolve]; exact shape_resolve_ne_reference target

/-- Following aliases twice is following them once. -/
@[simp] theorem resolve_resolve : ∀ n : Node, n.resolve.resolve = n.resolve
  | scalar .. => rfl
  | mapping .. => rfl
  | sequence .. => rfl
  | reference _ target => by rw [resolve]; exact resolve_resolve target

end Node

end QueryBook
