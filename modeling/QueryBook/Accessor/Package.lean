import QueryBook.Accessor.Identifier
import QueryBook.Text.Pieces

/-!
# Package names

The package of generated code is named after the last segment of a name, a directory or an import
path.
-/

namespace QueryBook.Package

/-- The name where none can be derived. -/
def fallback : String := "database"

/-- The last segment of a path, both kinds of slashes separating segments; slashes at the end do not
count. -/
def lastSegment (path : List Char) : List Char :=
  let slashes := path.map fun c => if c = '\\' then '/' else c
  ((Text.splitOnChar '/' (Text.dropEndWhile (· = '/') slashes)).getLast?).getD []

/-- The package name for a requested one. -/
def name (requested : String) : String :=
  let last := String.ofList (lastSegment requested.toList)
  if last = "" || last = "." || last = ".." then fallback
  else
    let identifier := Text.lower (Identifier.ofName last false)
    if identifier.toList.all (· = '_') then fallback else identifier

end QueryBook.Package
