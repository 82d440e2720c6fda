import QueryBook.Accessor.Import
import QueryBook.CommandLine.Session
import QueryBook.Json
import QueryBook.Queries.Files

/-!
# Checking documents

A check reads documents and resolves their imports. The verdict on a document depends on no other
document.
-/

namespace QueryBook

/-- The verdict on a document: its queries, or the first error. -/
abbrev Verdict := Except SchemaError Queries

namespace Verdict

/-- The verdict on the document at a path, under an import table. -/
def ofDocument [Diagnosis] (imports : ImportTable) (files : FileTree) (path : Path) : Verdict := do
  let queries ← Queries.load files path
  let _ ← imports.resolve queries.list
  return queries

/-- Whether a document is wrong. -/
def isFailure (v : Verdict) : Bool := !v.toOption.isSome

/-- The line that reports a verdict. -/
def line (path : Path) (v : Verdict) : String :=
  match v with
  | .ok queries => s!"✓ {path} ({queries.size} queries)\n"
  | .error e => s!"✗ {path}: {e.render}\n"

/-- A verdict in a JSON report. -/
def toJson (path : Path) (v : Verdict) : Json.Value :=
  match v with
  | .ok queries =>
    .object [("file", .string path), ("ok", .boolean true),
      ("queries", .array (queries.names.map .string))]
  | .error e =>
    .object [
      ("error", .object [
        ("column", .number e.position.column),
        ("kind", .string e.problem.kind.name),
        ("line", .number e.position.line),
        ("message", .string e.render),
        ("query", .string e.query)]),
      ("file", .string path),
      ("ok", .boolean false)]

end Verdict

namespace Command

/-- The documents that arguments stand for; there has to be one. -/
def findDocuments (paths : List Path) : Command (List Path) := do
  match DocumentSearch.run (← files) paths with
  | [] => throw .noDocuments
  | documents => return documents

/-- Checks documents and reports all verdicts. -/
def check [Diagnosis] (settings : Settings) (paths : List Path) (json : Bool) : Command Unit := do
  let documents ← findDocuments paths
  let files ← files
  let imports := ImportTable.ofEntries settings.imports
  let verdicts := documents.map fun path => (path, Verdict.ofDocument imports files path)
  if json then print ((Json.Value.array (verdicts.map fun (p, v) => v.toJson p)).text ++ "\n")
  else print (String.join (verdicts.map fun (p, v) => v.line p))
  let failed := (verdicts.filter fun (_, v) => v.isFailure).length
  if 0 < failed then throw (.check failed verdicts.length)

end Command

end QueryBook
