import QueryBook.SchemaError
import QueryBook.Settings

/-!
# Failures of commands

Why a command stops, and how that is reported: what was being done, then the causes from the
outermost to the innermost.
-/

namespace QueryBook

/-- Why a generated file is not as it should be. -/
inductive OutputFailure where
  /-- The queries refer to a package that is not imported. -/
  | unresolved (error : SchemaError)
  /-- The file cannot be written. -/
  | unwritten (target : Path) (error : FileError)
  /-- The formatter refused the code, which was written unformatted. -/
  | unformatted (target : Path) (reason : String)
  deriving DecidableEq

/-- Why a command stops. -/
inductive Failure where
  | settings (path : Path) (error : SettingsError)
  | noDocuments
  | outDirectory (path : Path) (error : FileError)
  | document (path : Path) (error : SchemaError)
  | accessors (document : Path) (failure : OutputFailure)
  | library (failure : OutputFailure)
  /-- Some of the documents of a check are wrong. -/
  | check (failed total : Nat)
  /-- A document in canonical form cannot be written. -/
  | canonical (path : Path) (error : FileError)
  | settingsExist (path : Path)
  | saveSettings (path : Path) (error : FileError)
  deriving DecidableEq

/-! ## Wording -/

/-- The messages of an error in a document. -/
def SchemaError.messages (e : SchemaError) : List String := e.render :: e.problem.cause?.toList

/-- The messages of a failed output. -/
def OutputFailure.messages : OutputFailure → List String
  | unresolved e => e.messages
  | unwritten target e => [s!"write {target}", e.text]
  | unformatted target reason => [s!"format {target}: {reason}"]

namespace Failure

/-- The messages of a failure, from the outermost. -/
def messages : Failure → List String
  | settings path e => [s!"load config {path}", e.text]
  | noDocuments => ["no query documents found"]
  | outDirectory path e => [s!"create output directory {path}", e.text]
  | document path e => s!"parse {path}" :: e.messages
  | accessors path f => s!"generate {path}" :: f.messages
  | library f => "generate library" :: f.messages
  | check failed total => [s!"{failed} of {total} documents failed"]
  | canonical path e => [s!"write {path}", e.text]
  | settingsExist path => [s!"{path} already exists (use --force to overwrite)"]
  | saveSettings path e => [s!"write {path}", (SettingsError.unreadable e).text]

/-! ## Layout -/

/-- A message whose lines are indented, the first by another text than the others. -/
def indented (first others message : String) : List String :=
  match (Text.splitOnChar '\n' message.toList).map String.ofList with
  | [] => [first]
  | line :: lines => (first ++ line) :: lines.map (others ++ ·)

/-- How a cause is numbered, right-aligned in five columns. -/
def numbering (n : Nat) : String :=
  let digits := toString n
  String.ofList (List.replicate (5 - digits.length) ' ') ++ digits ++ ": "

/-- The lines of causes; several are numbered. -/
def causeLines (causes : List String) : List String :=
  match causes with
  | [cause] => indented "    " "    " cause
  | _ => causes.zipIdx.flatMap fun (cause, n) => indented (numbering n) "       " cause

/-- The lines of the report of a failure. -/
def lines (f : Failure) : List String :=
  match f.messages with
  | [] => []
  | message :: causes =>
    indented "Error: " "" message ++
      (if causes.isEmpty then [] else "" :: "Caused by:" :: causeLines causes)

end Failure

end QueryBook
