import QueryBook.Comment

/-!
# Blocks of fields

The parameters and the result columns of a query are blocks of named, typed fields in document
order. A block may define an anchor or be a copy of an anchored one; blocks that share a name are
given one type.
-/

namespace QueryBook

/-- A named, typed field. -/
structure Field where
  name : String
  /-- The type, as generated code writes it. -/
  type : String
  comment : Comment := .empty
  position : Position := .unknown
  deriving DecidableEq

/-- Whether the type of a field is a pointer or a reference. -/
def Field.isPointer (f : Field) : Bool :=
  f.type.toList.head?.any fun c => c = '*' || c = '&'

/-- A block of fields with distinct names. -/
structure Fields where
  comment : Comment := .empty
  /-- The fields in document order. -/
  list : List Field := []
  /-- The anchor under which the block is defined. -/
  anchor : Option String := none
  /-- The anchor of the block this one is a copy of. -/
  copyOf : Option String := none
  position : Position := .unknown
  deriving DecidableEq

namespace Fields

/-- The block without fields. -/
def empty : Fields := {}

instance : Inhabited Fields := ⟨empty⟩

/-- The field of a name. -/
def get? (fs : Fields) (name : String) : Option Field := fs.list.find? (·.name = name)

/-- The number of fields. -/
def size (fs : Fields) : Nat := fs.list.length

/-- Whether there are no fields. -/
def isEmpty (fs : Fields) : Bool := fs.list.isEmpty

/-- The name a block shares with others, if any. -/
def sharedName (fs : Fields) : Option String := fs.copyOf.or fs.anchor

/-- Appends a field, unless its name is taken. -/
def push (fs : Fields) (f : Field) : Except SchemaError Fields :=
  if (fs.get? f.name).isSome then
    .error { problem := .fieldRedefined f.name, position := f.position }
  else .ok { fs with list := fs.list ++ [f] }

/-! ## Reading -/

/-- The field of a pair of nodes, its name and its type. -/
def readField (name type : Node) : Except SchemaError Field :=
  let type' := type.resolve
  let text := Text.trim type'.text
  if name.text = "" then
    .error { problem := .fieldNameMissing, position := name.position }
  else if !type'.isScalar then
    .error { problem := .fieldTypeNotScalar name.text type'.shape, position := type'.position }
  else if text = "" then
    .error { problem := .fieldTypeMissing name.text, position := type'.position }
  else
    .ok { name := name.text, type := text, comment := .ofNodes [name, type],
          position := name.position }

/-- Appends the field of a pair of nodes. -/
def readPair (fs : Fields) (pair : Node × Node) : Except SchemaError Fields :=
  (readField pair.1 pair.2).bind fs.push

/-- The block of a node: a mapping of names to types, or an alias to one. -/
def ofNode (n : Node) : Except SchemaError Fields :=
  let target := n.resolve
  match target.pairs? with
  | none =>
    .error { problem := .fieldsNotMapping target.shape, position := target.position }
  | some pairs =>
    pairs.foldlM readPair
      { anchor := n.anchor, copyOf := n.aliasOf, position := target.position }

end Fields

end QueryBook
