import QueryBook.Position
import QueryBook.QueryType
import QueryBook.Text.Quoted

/-!
# Schema errors

What can be wrong with a query document. A `Problem` is the cause, with the names and shapes it is
about; a `SchemaError` places it in the document and names the query it belongs to. The wording of
every problem is in `Problem.text` and `Problem.cause?`.
-/

namespace QueryBook

/-! ## Kinds -/

/-- The categories of schema errors. -/
inductive ErrorKind where
  /-- A node of the wrong shape, or a document that cannot be read. -/
  | structural
  /-- A query or field name used twice. -/
  | redefined
  /-- An empty name, type or SQL text. -/
  | missing
  /-- A query type that does not exist. -/
  | unknownType
  /-- Result fields that do not fit the query type. -/
  | shapeMismatch
  /-- A key that query objects do not have. -/
  | unknownProperty
  /-- A package qualifier that no import provides. -/
  | unresolvedPrefix
  deriving DecidableEq

namespace ErrorKind

/-- The name of a category in reports. -/
def name : ErrorKind → String
  | structural => "structural"
  | redefined => "redefined"
  | missing => "missing"
  | unknownType => "unknown_type"
  | shapeMismatch => "shape_mismatch"
  | unknownProperty => "unknown_property"
  | unresolvedPrefix => "unresolved_prefix"

/-- All categories. -/
def all : List ErrorKind :=
  [structural, redefined, missing, unknownType, shapeMismatch, unknownProperty, unresolvedPrefix]

/-- The category of a name. -/
def ofName? (text : String) : Option ErrorKind := all.find? (·.name == text)

end ErrorKind

/-- The shapes a document node can have. -/
inductive NodeShape where
  | scalar
  | mapping
  | sequence
  /-- An alias. -/
  | reference
  deriving DecidableEq

/-- The name of a shape in messages. -/
def NodeShape.name : NodeShape → String
  | scalar => "scalar"
  | mapping => "mapping"
  | sequence => "sequence"
  | reference => "alias"

/-! ## Problems -/

/-- What is wrong with a document. -/
inductive Problem where
  /-- The text is no well-formed document, for the reason that the scanner gives. -/
  | malformedDocument {cause : String}
  /-- The document's file cannot be read. -/
  | unreadable (path cause : String)
  /-- The events of a document end inside a node. -/
  | truncatedDocument
  /-- The end of a collection stands where a node should. -/
  | strayEnd (event : String)
  /-- An alias whose anchor has not been defined by then. -/
  | unknownAnchor
  /-- The root is no mapping. -/
  | queriesNotMapping (found : NodeShape)
  /-- A query without a name. -/
  | queryNameMissing
  /-- A query name used before. -/
  | queryRedefined (name : String)
  /-- A query that is no mapping. -/
  | queryNotMapping (found : NodeShape)
  /-- A key that queries do not have. -/
  | unknownProperty (key : String)
  /-- A type token that does not exist. -/
  | unknownType (token : String)
  /-- SQL that is no scalar. -/
  | sqlNotScalar (found : NodeShape)
  /-- No SQL, or blank SQL. -/
  | sqlMissing
  /-- A block of fields that is no mapping. -/
  | fieldsNotMapping (found : NodeShape)
  /-- A field without a name. -/
  | fieldNameMissing
  /-- A field whose type is no scalar. -/
  | fieldTypeNotScalar (field : String) (found : NodeShape)
  /-- A field with a blank type. -/
  | fieldTypeMissing (field : String)
  /-- A field name used before in the block. -/
  | fieldRedefined (field : String)
  /-- A query that reads rows but names no result fields. -/
  | outRequired (type : QueryType)
  /-- A query that reads no rows but names result fields. -/
  | outUnused (type : QueryType)
  /-- A result field that would be scanned into a pointer. -/
  | outPointer (field type : String)
  /-- A field type qualified by a package that is not imported. -/
  | unknownQualifier (qualifier field : String)
  /-- A problem that a caller states in its own words. -/
  | other (kind : ErrorKind) (text : String) (cause : Option String)
  deriving DecidableEq

namespace Problem

/-- The category of a problem. -/
def kind : Problem → ErrorKind
  | malformedDocument | unreadable .. | truncatedDocument => .structural
  | strayEnd _ | unknownAnchor => .structural
  | queriesNotMapping _ | queryNotMapping _ | sqlNotScalar _ => .structural
  | fieldsNotMapping _ | fieldTypeNotScalar .. => .structural
  | queryRedefined _ | fieldRedefined _ => .redefined
  | queryNameMissing | sqlMissing | fieldNameMissing | fieldTypeMissing _ => .missing
  | unknownProperty _ => .unknownProperty
  | unknownType _ => .unknownType
  | outRequired _ | outUnused _ | outPointer .. => .shapeMismatch
  | unknownQualifier .. => .unresolvedPrefix
  | other kind .. => kind

/-- The wording of a problem. Names from the document are quoted. -/
def text : Problem → String
  | malformedDocument => "invalid document"
  | unreadable path _ => s!"read {path}"
  | truncatedDocument => "unexpected end of document"
  | strayEnd event => s!"unexpected {event} event"
  | unknownAnchor => "alias to an unknown anchor"
  | queriesNotMapping found => s!"queries must be a mapping: have {found.name}"
  | queryNameMissing => "query name not defined"
  | queryRedefined name => s!"query {Text.quoted name} redefined"
  | queryNotMapping found => s!"query must be a mapping: have {found.name}"
  | unknownProperty key => s!"unknown property {Text.quoted key}"
  | unknownType _ => "parse type"
  | sqlNotScalar found => s!"sql must be a scalar: have {found.name}"
  | sqlMissing => "sql not defined"
  | fieldsNotMapping found => s!"fields must be a mapping: have {found.name}"
  | fieldNameMissing => "field name not defined"
  | fieldTypeNotScalar field found =>
    s!"field {Text.quoted field} type must be a scalar: have {found.name}"
  | fieldTypeMissing field => s!"field {Text.quoted field} type not defined"
  | fieldRedefined field => s!"field {Text.quoted field} redefined"
  | outRequired type => s!"{type.token} query must describe its out fields"
  | outUnused type => s!"{type.token} query returns no rows: out fields are not used"
  | outPointer field type =>
    s!"unsupported out field {Text.quoted field} pointer type {Text.quoted type}"
  | unknownQualifier qualifier field =>
    s!"unknown package prefix {Text.quoted qualifier} in field {Text.quoted field}"
  | other _ text _ => text

/-- How a type token that does not exist is reported. -/
def badTokenText (token : String) : String :=
  s!"unsupported query type: {Text.quoted token}"

/-- The wording of the underlying cause, if the problem wraps one. -/
def cause? : Problem → Option String
  | @malformedDocument cause => some cause
  | unreadable _ cause => some cause
  | unknownType token => some (badTokenText token)
  | other _ _ cause => cause
  | _ => none

/-- The wording of a problem, followed by that of its cause. -/
def fullText (p : Problem) : String :=
  match p.cause? with
  | some cause => s!"{p.text}: {cause}"
  | none => p.text

end Problem

/-! ## Located errors -/

/-- A problem, the query it belongs to and where it is. -/
structure SchemaError where
  /-- What is wrong. -/
  problem : Problem
  /-- The position of the offending node. -/
  position : Position
  /-- The query being read; empty before any is known. -/
  query : String := ""
  deriving DecidableEq

namespace SchemaError

/-- The error, attributed to a query. -/
def inQuery (e : SchemaError) (query : String) : SchemaError := { e with query }

/-- The error on one line: `[line:column] "query" text`, and the cause if there is one. -/
def render (e : SchemaError) : String :=
  s!"[{e.position.render}] {Text.quoted e.query} {e.problem.fullText}"

end SchemaError

end QueryBook
