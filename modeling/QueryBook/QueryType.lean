import QueryBook.Text.Case

/-!
# Query types

The type of a query says how it is run: what it reads, what it answers and so what its accessor
looks like.
-/

namespace QueryBook

/-- How a query is executed. -/
inductive QueryType where
  /-- Every matching row, handed to a callback row by row. -/
  | many
  /-- A single row. -/
  | one
  /-- Executed without reading rows. -/
  | exec
  /-- The number of rows changed. -/
  | affected
  /-- Whether at least one row changed. -/
  | exist
  /-- The identifier the server gave the inserted row. -/
  | rowId
  deriving DecidableEq

namespace QueryType

/-- A query without a type reads every row. -/
instance : Inhabited QueryType := ⟨.many⟩

/-- The canonical token of a type. -/
def token : QueryType → String
  | many => "many"
  | one => "one"
  | exec => "exec"
  | affected => "affected"
  | exist => "exist"
  | rowId => "id"

/-- Whether queries of the type read result rows. -/
def returnsRows : QueryType → Bool
  | many | one => true
  | exec | affected | exist | rowId => false

/-- The type a lower-case token stands for. -/
def ofLowerToken? : String → Option QueryType
  | "many" => some many
  | "one" => some one
  | "exec" => some exec
  | "affected" => some affected
  | "exist" => some exist
  | "id" => some rowId
  | "row_id" => some rowId
  | "rowid" => some rowId
  | _ => none

/-- The type a token stands for, whatever its case. -/
def ofToken? (text : String) : Option QueryType := ofLowerToken? (Text.lower text)

end QueryType

end QueryBook
