import QueryBook.Document
import QueryBook.Query

/-!
# Collections of queries

The queries of a document, in its order and with distinct names. Reading stops at the first query
that is wrong.
-/

namespace QueryBook

/-- The queries of a document. -/
structure Queries where
  /-- The queries in document order. -/
  list : List Query
  deriving DecidableEq

namespace Queries

/-- No queries. -/
def empty : Queries := ⟨[]⟩

instance : Inhabited Queries := ⟨empty⟩

/-- The number of queries. -/
def size (qs : Queries) : Nat := qs.list.length

/-- The names of the queries in document order. -/
def names (qs : Queries) : List String := qs.list.map (·.name)

/-- The query of a name. -/
def get? (qs : Queries) (name : String) : Option Query := qs.list.find? (·.name = name)

/-- Appends the query of a pair of nodes, its name and its definition. -/
def readPair (qs : Queries) (pair : Node × Node) : Except SchemaError Queries :=
  let (name, definition) := pair
  if name.text = "" then
    .error { problem := .queryNameMissing, position := name.position }
  else if (qs.get? name.text).isSome then
    .error { problem := .queryRedefined name.text, position := name.position, query := name.text }
  else (Query.ofNode name definition).map fun q => ⟨qs.list ++ [q]⟩

/-- The queries of a document's root: a mapping of names to definitions, or an alias to one. -/
def ofNode (root : Node) : Except SchemaError Queries :=
  let target := root.resolve
  match target.pairs? with
  | none => .error { problem := .queriesNotMapping target.shape, position := target.position }
  | some pairs => pairs.foldlM readPair empty

/-- The queries of a source. A source without a document holds none. -/
def parse [Diagnosis] (source : String) : Except SchemaError Queries := do
  match ← Document.read source with
  | some root => ofNode root
  | none => .ok empty

end Queries

end QueryBook
