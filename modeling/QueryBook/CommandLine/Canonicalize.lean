import QueryBook.Canonical
import QueryBook.CommandLine.Generate

/-!
# Canonical form on request

Documents are printed in canonical form, or stored so in the place of what was there.
-/

namespace QueryBook.Command

/-- Stores a document in canonical form where it was. -/
def storeCanonical [Diagnosis] (path : Path) : Command Unit := do
  let queries ← readDocument path
  change (.canonical path) fun files => files.write path queries.toYaml
  report s!"Formatted {path}"

/-- Prints a document in canonical form, under its path if asked to. -/
def printCanonical [Diagnosis] (titled : Bool) (path : Path) : Command Unit := do
  let queries ← readDocument path
  if titled then print s!"# {path}\n"
  print queries.toYaml

/-- Prints documents in canonical form, or stores them. Several printed ones are told apart by their
paths. -/
def canonicalize [Diagnosis] (paths : List Path) (write : Bool) : Command Unit := do
  let documents ← findDocuments paths
  if write then documents.forM storeCanonical
  else documents.forM (printCanonical (1 < documents.length))

end QueryBook.Command
