import QueryBook.Fields
import QueryBook.Sql

/-!
# Queries

A query has a name, a type, SQL, parameters and result fields. It is read from a mapping; where a
key comes twice the later one counts. Once all keys are read, the result fields have to fit the
type.
-/

namespace QueryBook

/-- A named database query. -/
structure Query where
  name : String
  comment : Comment
  type : QueryType
  sql : Sql
  params : Fields
  out : Fields
  /-- Where the name stands. -/
  position : Position
  deriving DecidableEq

namespace Query

/-! ## Keys -/

/-- What the keys of a query have said so far. -/
structure Draft where
  type : QueryType := .many
  sql : Option Sql := none
  params : Fields := {}
  out : Fields := {}
  deriving DecidableEq

/-- Takes in the value of a key. -/
def Draft.read (d : Draft) (key value : Node) : Except SchemaError Draft :=
  if key.text = "type" then
    match QueryType.ofToken? value.resolve.text with
    | some type => .ok { d with type }
    | none =>
      .error { problem := .unknownType value.resolve.text, position := value.position }
  else if key.text = "sql" then
    (Sql.ofNode value).map fun sql => { d with sql := some sql }
  else if key.text = "params" then
    (Fields.ofNode value).map fun fields =>
      { d with params := { fields with comment := .ofNodes [key] } }
  else if key.text = "out" then
    (Fields.ofNode value).map fun fields =>
      { d with out := { fields with comment := .ofNodes [key] } }
  else .error { problem := .unknownProperty key.text, position := key.position }

/-- Takes in the keys of a query in order. -/
def Draft.readAll (d : Draft) (pairs : List (Node × Node)) : Except SchemaError Draft :=
  pairs.foldlM (fun d pair => d.read pair.1 pair.2) d

/-! ## Shape -/

/-- What is wrong with the result fields of a query, for its type: a type that reads rows needs
some, another type has none, and none is scanned into a pointer. -/
def shapeError? (q : Query) : Option SchemaError :=
  if q.type.returnsRows && q.out.isEmpty then
    some { problem := .outRequired q.type, position := q.position }
  else if !q.type.returnsRows && !q.out.isEmpty then
    some { problem := .outUnused q.type, position := q.out.position }
  else
    (q.out.list.find? (·.isPointer)).map fun f =>
      { problem := .outPointer f.name f.type, position := f.position }

/-- The query of a draft, under a name. -/
def ofDraft (name : Node) (d : Draft) : Except SchemaError Query :=
  match d.sql with
  | none => .error { problem := .sqlMissing, position := name.position }
  | some sql =>
    let q : Query :=
      { name := name.text, comment := .ofNodes [name], type := d.type, sql, params := d.params,
        out := d.out, position := name.position }
    match q.shapeError? with
    | some e => .error e
    | none => .ok q

/-! ## Reading -/

/-- The query of a definition, errors not yet attributed to it. -/
def readDefinition (name definition : Node) : Except SchemaError Query :=
  let target := definition.resolve
  match target.pairs? with
  | none => .error { problem := .queryNotMapping target.shape, position := target.position }
  | some pairs => (Draft.readAll {} pairs).bind (ofDraft name)

/-- The query of a name and its definition. -/
def ofNode (name definition : Node) : Except SchemaError Query :=
  (readDefinition name definition).mapError (·.inQuery name.text)

end Query

end QueryBook
