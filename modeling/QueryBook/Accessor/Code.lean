import QueryBook.Accessor.Import
import QueryBook.Accessor.View

/-!
# Generated code

The text of the generated files: one file of accessors per document, and a library file with what
all of them share. The text is not formatted.
-/

namespace QueryBook

/-- What is written into every generated file about its origin. -/
structure Metadata where
  /-- The name of the generator. -/
  name : String := "sqlgen"
  /-- The version of the generator. -/
  version : String := "0.1.0"
  /-- The package the file belongs to. -/
  package : String
  deriving DecidableEq

namespace Code

/-- Lines of code, each ended. -/
def lines (ls : List String) : String := String.join (ls.map (· ++ "\n"))

/-! ## Comments and literals -/

/-- Comment lines after a marker; an empty one is the marker alone, without blanks at its end. -/
def commentLines (marker : String) (comment : List String) : String :=
  lines <| comment.map fun line => if line.isEmpty then Text.trimEnd marker else marker ++ line

/-- The backquote, which begins and ends raw strings. -/
def backquote : Char := '\x60'

/-- A character inside a raw string. A backquote interrupts it for a string in double quotes. -/
def rawChar (c : Char) : List Char :=
  if c = backquote then
    [backquote, '+', '"', backquote, '"', '+', backquote]
  else [c]

/-- A text as a raw string. -/
def rawString (text : String) : String :=
  String.ofList (backquote :: text.toList.flatMap rawChar ++ [backquote])

/-! ## Structs -/

/-- The lines of a struct field. -/
def structField (f : FieldView) : String :=
  commentLines "\t// " f.comment ++ lines ["\t" ++ f.name ++ " " ++ f.type]

/-- The declaration of a struct, without the end of its last line. -/
def structDeclaration (s : ShapeView) : String :=
  commentLines "// " s.comment ++ lines ["type " ++ s.typeName ++ " struct \x7b"] ++
    String.join (s.fields.map structField) ++ "\x7d"

/-- A struct that is declared here, after an empty line. -/
def declared (shape : Option ShapeView) : String :=
  match shape with
  | some s => if s.declare then "\n" ++ structDeclaration s ++ "\n" else ""
  | none => ""

/-! ## Methods -/

/-- The name of the struct of the result rows. -/
def outType (v : QueryView) : String := (v.out.map (·.typeName)).getD ""

/-- The parameters of a method: the context, the query's parameters one by one or as a struct, and
for a query of many rows the callback. -/
def signature (v : QueryView) : String :=
  "ctx context.Context" ++
    String.join (v.params.map fun f => ", " ++ f.param ++ " " ++ f.type) ++
    ((v.bundle.map fun s => ", args " ++ s.typeName).getD "") ++
    (if v.kind = .many then ", f func(out " ++ outType v ++ ") error" else "")

/-- What a method returns. -/
def returns (v : QueryView) : String :=
  match v.kind with
  | .one => "(" ++ outType v ++ ", error)"
  | .affected | .rowId => "(int64, error)"
  | .exist => "(bool, error)"
  | .many | .exec => "error"

/-- The call of a database method with the SQL and its arguments. -/
def execute (v : QueryView) (method : String) : String :=
  "q.db." ++ method ++ "(ctx, " ++ rawString v.sql ++ String.join (v.args.map (", " ++ ·)) ++ ")"

/-- The lines of the addresses a row is scanned into. -/
def scanTargets (indent : String) (v : QueryView) : List String :=
  ((v.out.map (·.fields)).getD []).map fun f => indent ++ "&out." ++ f.name ++ ","

/-- The lines that return early with an error. -/
def returnIfError (result : String) : List String :=
  ["\tif err != nil \x7b", "\t\treturn " ++ result, "\t\x7d"]

/-- The lines of the body of a method. -/
def body (v : QueryView) : List String :=
  match v.kind with
  | .many =>
    ["\trows, err := " ++ execute v "QueryContext"] ++ returnIfError "err" ++
      ["\tdefer rows.Close()", "", "\tfor rows.Next() \x7b", "\t\tvar out " ++ outType v,
        "\t\tif err := rows.Scan("] ++ scanTargets "\t\t\t" v ++
      ["\t\t); err != nil \x7b", "\t\t\treturn err", "\t\t\x7d", "",
        "\t\tif err := f(out); err != nil \x7b", "\t\t\treturn err", "\t\t\x7d", "\t\x7d", "",
        "\tif err := rows.Close(); err != nil \x7b", "\t\treturn err", "\t\x7d", "",
        "\treturn rows.Err()"]
  | .one =>
    ["\trow := " ++ execute v "QueryRowContext", "", "\tvar out " ++ outType v,
        "\terr := row.Scan("] ++ scanTargets "\t\t" v ++
      ["\t)", "", "\treturn out, err"]
  | .exec =>
    ["\t_, err := " ++ execute v "ExecContext", "", "\treturn err"]
  | .affected =>
    ["\tresult, err := " ++ execute v "ExecContext"] ++ returnIfError "0, err" ++
      ["", "\treturn result.RowsAffected()"]
  | .exist =>
    ["\tresult, err := " ++ execute v "ExecContext"] ++ returnIfError "false, err" ++
      ["", "\trows, err := result.RowsAffected()"] ++ returnIfError "false, err" ++
      ["", "\treturn rows > 0, nil"]
  | .rowId =>
    ["\tresult, err := " ++ execute v "ExecContext"] ++ returnIfError "0, err" ++
      ["", "\treturn result.LastInsertId()"]

/-- The section of a query: its heading, the structs it declares and its method. -/
def querySection (v : QueryView) : String :=
  lines ["", "// *** " ++ v.label ++ " ***"] ++ declared v.out ++ declared v.bundle ++ "\n" ++
    commentLines "// " v.comment ++
    lines ["func (q Queries) " ++ v.method ++ "(" ++ signature v ++ ") " ++ returns v ++ " \x7b"] ++
    lines (body v) ++ lines ["\x7d"]

/-! ## Files -/

/-- The heading of every generated file. -/
def heading (m : Metadata) : String :=
  lines ["// Code generated by " ++ m.name ++ ". DO NOT EDIT.", "// versions:",
    "//   " ++ m.name ++ " " ++ m.version]

/-- The line of an import. -/
def importLine (i : Import) : String :=
  "\t" ++ i.localName ++ (if i.localName.isEmpty then "" else " ") ++ "\"" ++ i.path ++ "\""

/-- The import declaration of a file of accessors. -/
def importBlock (imports : ImportSet) : String :=
  lines (["", "import (", "\t\"context\""] ++
    (if imports.isEmpty then [] else "" :: imports.list.map importLine) ++ [")"])

/-- The file of accessors of a document. -/
def queriesFile (m : Metadata) (source : String) (imports : ImportSet) (views : List QueryView) :
    String :=
  heading m ++ lines ["// source: " ++ source, "", "package " ++ m.package] ++
    (if views.isEmpty then "" else importBlock imports) ++
    String.join (views.map querySection)

/-- The file of accessors of queries, under naming rules. -/
def ofQueries (m : Metadata) (naming : Naming) (source : String) (imports : ImportSet)
    (queries : List Query) : String :=
  queriesFile m source imports (QueryView.ofQueries naming [] queries)

/-- The library file. -/
def library (m : Metadata) : String :=
  heading m ++ lines
    ["",
      "package " ++ m.package,
      "",
      "import (",
      "\t\"context\"",
      "\t\"database/sql\"",
      ")",
      "",
      "// DBTX is the database handle queries run on: *sql.DB, *sql.Conn or *sql.Tx.",
      "type DBTX interface \x7b",
      "\tExecContext(ctx context.Context, query string, args ...any) (sql.Result, error)",
      "\tQueryContext(ctx context.Context, query string, args ...any) (*sql.Rows, error)",
      "\tQueryRowContext(ctx context.Context, query string, args ...any) *sql.Row",
      "\x7d",
      "",
      "// ErrNoRows is returned by single row queries that matched no row.",
      "var ErrNoRows = sql.ErrNoRows",
      "",
      "// Queries runs the generated queries on a database handle.",
      "type Queries struct \x7b",
      "\tdb DBTX",
      "\x7d",
      "",
      "// New returns the queries running on db.",
      "func New(db DBTX) Queries \x7b",
      "\treturn Queries\x7bdb: db\x7d",
      "\x7d",
      "",
      "// WithTx returns the queries running inside the transaction tx.",
      "func (q Queries) WithTx(tx *sql.Tx) Queries \x7b",
      "\treturn Queries\x7bdb: tx\x7d",
      "\x7d"]

end Code

end QueryBook
