import QueryBook.Accessor.Identifier
import QueryBook.Queries

/-!
# Views

What generated code says about a query, under its names: methods, parameters, structs and their
fields. Struct types are declared once in a file, where they first occur.
-/

namespace QueryBook

/-- A field under its names in generated code. -/
structure FieldView where
  /-- The name as a struct field. -/
  name : String
  /-- The name as a parameter. -/
  param : String
  type : String
  comment : List String
  deriving DecidableEq

/-- A struct: a result row or a bundle of parameters. -/
structure ShapeView where
  typeName : String
  /-- Whether the struct is declared here. -/
  declare : Bool
  comment : List String
  fields : List FieldView
  deriving DecidableEq

/-- A query under its names in generated code. -/
structure QueryView where
  name : String
  /-- The name of the method. -/
  method : String
  kind : QueryType
  comment : List String
  /-- What the query is called in logs. -/
  label : String
  /-- The SQL, under a comment with the label. -/
  sql : String
  /-- The parameters that are passed one by one. -/
  params : List FieldView
  /-- The struct that is passed in their place. -/
  bundle : Option ShapeView
  /-- What is passed with the SQL, in order. -/
  args : List String
  out : Option ShapeView
  deriving DecidableEq

/-! ## Fields -/

namespace FieldView

/-- A name with its number; the first has none. -/
def numbered (name : String) (n : Nat) : String := if n = 1 then name else s!"{name}{n}"

/-- The name if it is free, else with the least number from 2 on that makes it free. One more
candidate than there are names taken is enough. -/
def freeName (taken : List String) (name : String) : String :=
  let candidates := (List.range' 1 (taken.length + 1)).map (numbered name)
  (candidates.find? fun candidate => !taken.contains candidate).getD name

/-- The views of fields, whose names are kept apart from those taken. -/
def ofFields (naming : Naming) (names params : List String) : List Field → List FieldView
  | [] => []
  | f :: rest =>
    let name := freeName names (naming.exported f.name)
    let param := freeName params (naming.param f.name)
    { name, param, type := f.type, comment := f.comment.lines } ::
      ofFields naming (name :: names) (param :: params) rest

end FieldView

/-! ## Structs -/

namespace ShapeView

/-- The name of the struct of a block: that of its anchor, else made of the query's name. -/
def nameOf (naming : Naming) (fields : Fields) (query role : String) : String :=
  match fields.sharedName with
  | some name => naming.exported name
  | none => naming.exported s!"{query}_{role}"

/-- The struct of a block, given the struct names declared before. -/
def ofFields (naming : Naming) (declared : List String) (fields : Fields) (query role : String) :
    ShapeView :=
  let typeName := nameOf naming fields query role
  { typeName, declare := !declared.contains typeName, comment := fields.comment.lines,
    fields := FieldView.ofFields naming [] [] fields.list }

end ShapeView

/-! ## Queries -/

namespace QueryView

/-- The greatest number of parameters that are passed one by one. -/
def maxInlineParams : Nat := 3

/-- Whether the parameters of a query are passed as a struct. -/
def isBundled (q : Query) : Bool :=
  q.params.sharedName.isSome || maxInlineParams < q.params.size

/-- What a query is called in logs: the first line of its comment, else its name. -/
def labelOf (q : Query) : String :=
  match q.comment.firstLine? with
  | some line => if Text.isAllBlank line then q.name else line
  | none => q.name

/-- The struct of the result rows. -/
def outOf (naming : Naming) (declared : List String) (q : Query) : Option ShapeView :=
  if q.out.isEmpty then none else some (.ofFields naming declared q.out q.name "row")

/-- The struct of the parameters. -/
def bundleOf (naming : Naming) (declared : List String) (q : Query) : Option ShapeView :=
  if isBundled q then some (.ofFields naming declared q.params q.name "params") else none

/-- Struct names with that of a struct. -/
def declaring (declared : List String) (shape : Option ShapeView) : List String :=
  (shape.map (·.typeName)).toList ++ declared

/-- The view of a query, given the struct names declared before. -/
def ofQuery (naming : Naming) (declared : List String) (q : Query) : QueryView :=
  let out := outOf naming declared q
  let bundle := bundleOf naming (declaring declared out) q
  let params := if isBundled q then [] else FieldView.ofFields naming [] [] q.params.list
  let label := labelOf q
  { name := q.name
    method := naming.exported q.name
    kind := q.type
    comment := q.comment.lines
    label
    sql := s!"-- {label}\n{Text.trimEnd q.sql.text}"
    params
    bundle
    args :=
      match bundle with
      | some shape => shape.fields.map fun f => "args." ++ f.name
      | none => params.map (·.param)
    out }

/-- The struct names declared after a view. -/
def declaredAfter (declared : List String) (v : QueryView) : List String :=
  declaring (declaring declared v.out) v.bundle

/-- The views of queries in order. -/
def ofQueries (naming : Naming) (declared : List String) : List Query → List QueryView
  | [] => []
  | q :: rest =>
    let view := ofQuery naming declared q
    view :: ofQueries naming (declaredAfter declared view) rest

end QueryView

end QueryBook
