import QueryBook.Queries

/-!
# Imports

A field type may be qualified by a package, as in `uuid.UUID`. A table holds the import path of
every qualifier; resolving queries against it yields the imports their code needs.
-/

namespace QueryBook

/-! ## Qualifiers -/

namespace Qualifier

/-- Characters a qualifier begins with. -/
def isStart (c : Char) : Bool := c.isAlpha || c = '_'

/-- Characters of a qualifier. -/
def isPart (c : Char) : Bool := c.isAlphanum || c = '_'

/-- The qualifiers in a text: ASCII identifiers before a dot and not after a word character. `run`
is the identifier under way, backwards, and `afterWord` says whether a word character was passed
last. -/
def scan (run : Option (List Char)) (afterWord : Bool) : List Char → List String
  | [] => []
  | c :: rest =>
    match run with
    | some before =>
      if isPart c then scan (some (c :: before)) true rest
      else if c = '.' then String.ofList before.reverse :: scan none false rest
      else scan none (Text.isWord c) rest
    | none =>
      if isStart c && !afterWord then scan (some [c]) true rest
      else scan none (Text.isWord c) rest

/-- The qualifiers in a type, from left to right. -/
def ofType (type : String) : List String := scan none false type.toList

end Qualifier

/-! ## Import tables -/

/-- The import paths of qualifiers, ascending by qualifier. -/
structure ImportTable where
  entries : List (String × String)
  deriving DecidableEq

namespace ImportTable

/-- Puts an entry in its place; it replaces an earlier one of the qualifier. -/
def insertEntry (qualifier path : String) : List (String × String) → List (String × String)
  | [] => [(qualifier, path)]
  | entry :: rest =>
    if qualifier < entry.1 then (qualifier, path) :: entry :: rest
    else if qualifier = entry.1 then (qualifier, path) :: rest
    else entry :: insertEntry qualifier path rest

/-- The table with an entry. -/
def insert (t : ImportTable) (qualifier path : String) : ImportTable :=
  ⟨insertEntry qualifier path t.entries⟩

/-- The import path of a qualifier. -/
def get? (t : ImportTable) (qualifier : String) : Option String := t.entries.lookup qualifier

/-- The table that is there without configuration. -/
def standard : ImportTable :=
  (((⟨[]⟩ : ImportTable).insert "sql" "database/sql").insert "time" "time").insert "json"
    "encoding/json"

/-- Whether a path segment is a major version, `v` and digits. -/
def isMajorVersion : List Char → Bool
  | 'v' :: digits => !digits.isEmpty && digits.all Char.isDigit
  | _ => false

/-- The qualifier a bare import path is known by: its last segment, the one before if that is a
major version, up to the first dot. -/
def impliedQualifier (path : List Char) : List Char :=
  let segments := (Text.splitOnChar '/' (Text.dropEndWhile (· = '/') path)).reverse
  let segment :=
    match segments with
    | last :: before :: _ => if isMajorVersion last then before else last
    | [last] => last
    | [] => []
  segment.takeWhile (· ≠ '.')

/-- The table with an import, written `qualifier:path` or as a bare path. Blank ones are ignored. -/
def register (t : ImportTable) (entry : String) : ImportTable :=
  let text := Text.trimChars entry.toList
  let qualifier := text.takeWhile (· ≠ ':')
  match text.dropWhile (· ≠ ':') with
  | _ :: path =>
    if qualifier.isEmpty then
      t.insert (String.ofList (impliedQualifier text)) (String.ofList text)
    else t.insert (String.ofList qualifier) (String.ofList path)
  | [] =>
    if text.isEmpty then t
    else t.insert (String.ofList (impliedQualifier text)) (String.ofList text)

/-- The standard table with imports added in order. -/
def ofEntries (entries : List String) : ImportTable := entries.foldl register standard

end ImportTable

/-! ## Imports of a file -/

/-- An import of a generated file. -/
structure Import where
  path : String
  /-- The name to import under; empty if the last segment of the path is the name. -/
  localName : String
  deriving DecidableEq

namespace Import

/-- The import of a path under a qualifier. -/
def ofQualifier (qualifier path : String) : Import :=
  let last := ((Text.splitOnChar '/' path.toList).getLast?).getD []
  { path, localName := if last = qualifier.toList then "" else qualifier }

/-- Imports are ordered by path, then by name. -/
def before (a b : Import) : Bool :=
  a.path < b.path || (a.path = b.path && a.localName < b.localName)

end Import

/-- The imports of a generated file, ascending and without duplicates. -/
structure ImportSet where
  list : List Import
  deriving DecidableEq

namespace ImportSet

/-- No imports. -/
def empty : ImportSet := ⟨[]⟩

/-- Puts an import in its place, unless it is there. -/
def insertSorted (i : Import) : List Import → List Import
  | [] => [i]
  | other :: rest =>
    if i.before other then i :: other :: rest
    else if i = other then other :: rest
    else other :: insertSorted i rest

/-- The set with an import. -/
def insert (s : ImportSet) (i : Import) : ImportSet := ⟨insertSorted i s.list⟩

/-- The number of imports. -/
def size (s : ImportSet) : Nat := s.list.length

/-- Whether there are no imports. -/
def isEmpty (s : ImportSet) : Bool := s.list.isEmpty

/-- Whether a path is imported, under whatever name. -/
def containsPath (s : ImportSet) (path : String) : Bool := s.list.any (·.path = path)

end ImportSet

/-! ## Resolution -/

/-- A qualifier in a field of a query. -/
structure QualifierUse where
  qualifier : String
  field : Field
  query : String
  deriving DecidableEq

namespace QualifierUse

/-- The uses in a query: parameters before result fields, fields in order, each from left to
right. -/
def ofQuery (q : Query) : List QualifierUse :=
  (q.params.list ++ q.out.list).flatMap fun field =>
    (Qualifier.ofType field.type).map fun qualifier => { qualifier, field, query := q.name }

/-- The error that the qualifier is not in the table. -/
def unknown (u : QualifierUse) : SchemaError :=
  { problem := .unknownQualifier u.qualifier u.field.name, position := u.field.position,
    query := u.query }

end QualifierUse

namespace ImportTable

/-- Adds the import that a use needs. -/
def resolveUse (t : ImportTable) (s : ImportSet) (u : QualifierUse) :
    Except SchemaError ImportSet :=
  match t.get? u.qualifier with
  | some path => .ok (s.insert (.ofQualifier u.qualifier path))
  | none => .error u.unknown

/-- The imports that queries need; fails at the first qualifier that is not in the table. -/
def resolve (t : ImportTable) (queries : List Query) : Except SchemaError ImportSet :=
  (queries.flatMap QualifierUse.ofQuery).foldlM t.resolveUse .empty

end ImportTable

end QueryBook
