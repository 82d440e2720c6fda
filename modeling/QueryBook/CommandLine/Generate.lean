import QueryBook.CommandLine.Check
import QueryBook.Generator

/-!
# Generating a package

The accessors of every document go to a file named for the document, in the order of documents; the
library file comes last. The first failure ends the run. Where the formatter is missing, files are
written unformatted.
-/

namespace QueryBook

/-- What to generate. -/
structure GenerateOptions where
  paths : List Path
  /-- The directory that files go to. -/
  out : Option Path := none
  /-- The name or the import path of the package. -/
  name : Option String := none
  imports : List String := []
  deriving DecidableEq

namespace GenerateOptions

/-- The directory that files go to: as asked for, else as set, else the working directory. -/
def outDirectory (o : GenerateOptions) (settings : Settings) : Path :=
  (o.out.or settings.outDirectory).getD "."

/-- What the package is named for: what is asked for, else what is set, else the directory that
files go to. -/
def packageSource (o : GenerateOptions) (settings : Settings) (files : FileTree) : String :=
  let out := o.outDirectory settings
  ((o.name.or settings.package).getD
    (if out.same "." then "/" ++ String.intercalate "/" files.workingDirectory else out))

/-- The imports beyond the standard ones: as set, then as asked for. -/
def allImports (o : GenerateOptions) (settings : Settings) : List String :=
  settings.imports ++ o.imports

/-- The generator of a run. -/
def generator (o : GenerateOptions) (settings : Settings)
    (programs : String → Option Formatter.Program) (files : FileTree) : Generator :=
  .new (o.packageSource settings files) (o.allImports settings)
    (if settings.format.enabled then .ofCommand programs settings.format.command else .verbatim)

end GenerateOptions

namespace Command

/-- The name of the library file. -/
def libraryName : String := "db.go"

/-- What a document is called in its file of accessors. -/
def sourceName (document : Path) : String := document.fileName?.getD document

/-- The file of accessors of a document. -/
def target (out document : Path) : Path :=
  out.join ((document.fileStem?.getD (sourceName document)) ++ ".sql.go")

/-- Writes generated code: unformatted if the formatter is missing, and also if it refuses the code,
which is a failure. -/
def writeOutput (failure : OutputFailure → Failure) (path : Path)
    (code : Except GenerateError String) : Command Unit :=
  let write (text : String) : Command Unit :=
    change (fun e => failure (.unwritten path e)) fun files => files.write path text
  match code with
  | .ok text => write text
  | .error (.unformatted raw (.unavailable ..)) => write raw
  | .error (.unformatted raw (.rejected reason)) => do
    write raw
    throw (failure (.unformatted path reason))
  | .error (.unresolved e) => throw (failure (.unresolved e))

/-- The queries of a document. -/
def readDocument [Diagnosis] (path : Path) : Command Queries := do
  match Queries.load (← files) path with
  | .ok queries => return queries
  | .error e => throw (.document path e)

/-- Writes the file of accessors of a document; gives the number of its queries. -/
def generateDocument [Diagnosis] (g : Generator) (out : Path) (verbose : Bool) (document : Path) :
    Command Nat := do
  let queries ← readDocument document
  let path := target out document
  writeOutput (.accessors document) path (g.queriesFile (sourceName document) queries)
  if verbose then report s!"  Wrote {path} ({queries.size} queries)"
  return queries.size

/-- Writes the files of accessors of documents in order; gives the number of their queries. -/
def generateDocuments [Diagnosis] (g : Generator) (out : Path) (verbose : Bool) :
    List Path → Command Nat
  | [] => return 0
  | document :: rest => do
    let count ← generateDocument g out verbose document
    let others ← generateDocuments g out verbose rest
    return count + others

/-- Makes a directory unless it is there. -/
def ensureDirectory (path : Path) : Command Unit := do
  if !(← files).existsAt path then
    change (.outDirectory path) fun files => files.makeDirectories (path.length + 1) path

/-- Generates the package. -/
def generate [Diagnosis] (programs : String → Option Formatter.Program) (settings : Settings)
    (options : GenerateOptions) (verbose : Bool) : Command Unit := do
  let documents ← findDocuments options.paths
  let out := options.outDirectory settings
  ensureDirectory out
  let g := options.generator settings programs (← files)
  if verbose then report s!"Generating package {g.package}"
  let count ← generateDocuments g out verbose documents
  writeOutput .library (out.join libraryName) g.libraryFile
  report s!"✓ Generated {count} queries from {documents.length} documents into {out}"

end Command

end QueryBook
