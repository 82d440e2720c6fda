import QueryBook.FileTree
import QueryBook.Queries

/-!
# Query documents in a file tree

Documents are named by paths. A directory stands for the documents directly inside it. A search
gives every document once, in the order of paths, whatever the order of its arguments.
-/

namespace QueryBook

/-! ## Reading -/

/-- The queries of the document at a path. -/
def Queries.load [Diagnosis] (files : FileTree) (path : Path) : Except SchemaError Queries :=
  match files.read path with
  | .ok source => parse source
  | .error e => .error { problem := .unreadable path e.text, position := .unknown }

/-! ## Searching -/

namespace DocumentSearch

/-- Whether a file is taken for a document by its name. -/
def isDocumentName (name : String) : Bool :=
  Path.extension? name = some "yaml" || Path.extension? name = some "yml"

/-- The documents that an argument stands for. -/
def expand (files : FileTree) (path : Path) : List Path :=
  if files.isDirectory path then ((files.fileNames path).filter isDocumentName).map path.join
  else [path]

/-- Puts a path in its place, unless it is there in some spelling. -/
def insertPath (p : Path) : List Path → List Path
  | [] => [p]
  | q :: rest =>
    if p.before q then p :: q :: rest
    else if p.same q then q :: rest
    else q :: insertPath p rest

/-- The documents that arguments stand for, in the order of paths. -/
def run (files : FileTree) (paths : List Path) : List Path :=
  (paths.flatMap (expand files)).foldl (fun found p => insertPath p found) []

end DocumentSearch

end QueryBook
