import QueryBook.Node
import QueryBook.Text.Trim

/-!
# Query text

The SQL of a query is kept exactly as written; only text that is blank throughout is refused.
-/

namespace QueryBook

/-- The text of a query and where it stands. -/
structure Sql where
  text : String
  position : Position := .unknown
  deriving DecidableEq

namespace Sql

instance : Inhabited Sql := ⟨{ text := "" }⟩

/-- The SQL of a node: a scalar, or an alias to one. -/
def ofNode (n : Node) : Except SchemaError Sql :=
  let target := n.resolve
  if !target.isScalar then
    .error { problem := .sqlNotScalar target.shape, position := target.position }
  else if Text.isAllBlank target.text then
    .error { problem := .sqlMissing, position := target.position }
  else .ok { text := target.text, position := target.position }

end Sql

end QueryBook
