import QueryBook.Accessor.Code
import QueryBook.Accessor.Package
import QueryBook.Formatter

/-!
# The generator

A generator makes the files of one package: it resolves the imports of a document's queries, writes
their code and formats it.
-/

namespace QueryBook

/-- Why a file could not be generated. -/
inductive GenerateError where
  /-- The queries refer to a package that is not imported. -/
  | unresolved (error : SchemaError)
  /-- The code could not be formatted; it is kept unformatted. -/
  | unformatted (raw : String) (error : FormatError)
  deriving DecidableEq

/-- The wording of the failure. -/
def GenerateError.text : GenerateError → String
  | unresolved e => e.render
  | unformatted _ e => "format generated code: " ++ e.text

/-- A generator for the files of one package. -/
structure Generator where
  imports : ImportTable
  metadata : Metadata
  formatter : Formatter

namespace Generator

/-- The generator for a package, given by a name, a directory or an import path. -/
def new (name : String) (imports : List String) (formatter : Formatter) : Generator :=
  { imports := .ofEntries imports, metadata := { package := Package.name name }, formatter }

/-- The name of the package. -/
def package (g : Generator) : String := g.metadata.package

/-- Code after formatting. -/
def format (g : Generator) (raw : String) : Except GenerateError String :=
  (g.formatter raw).mapError (.unformatted raw)

/-- The file of accessors for the queries of a document, which the file names as its source. -/
def queriesFile (g : Generator) (source : String) (queries : Queries) :
    Except GenerateError String := do
  let imports ← (g.imports.resolve queries.list).mapError .unresolved
  g.format (Code.ofQueries g.metadata .standard source imports queries.list)

/-- The library file. -/
def libraryFile (g : Generator) : Except GenerateError String := g.format (Code.library g.metadata)

end Generator

end QueryBook
