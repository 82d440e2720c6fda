import QueryBook.Text.Case

/-!
# Identifiers

Names in query documents are free text; names in generated code are identifiers. Characters other
than letters and digits are dropped and start a new word, so `user_id` becomes `userID`.
-/

namespace QueryBook

namespace Identifier

/-- The keywords of the generated code. -/
def keywords : List String :=
  ["break", "case", "chan", "const", "continue", "default", "defer", "else", "fallthrough", "for",
    "func", "go", "goto", "if", "import", "interface", "map", "package", "range", "return",
    "select", "struct", "switch", "type", "var"]

/-- A character, in upper case if asked for. -/
def cased (upper : Bool) (c : Char) : List Char := if upper then Text.upperChar c else [c]

/-- The words of a name, run together; `upper` says whether the next character starts one. -/
def joinWords (upper : Bool) : List Char → List Char
  | [] => []
  | c :: rest =>
    if Text.isAlphanumeric c then cased upper c ++ joinWords false rest else joinWords true rest

/-- A name run together, after an underscore if it does not begin with a letter. -/
def joined (exported : Bool) : List Char → List Char
  | [] => ['_']
  | c :: rest =>
    if c = '_' then '_' :: joinWords exported rest
    else if Text.isAlphabetic c then joinWords exported (c :: rest)
    else if Text.isAlphanumeric c then '_' :: joinWords exported (c :: rest)
    else '_' :: joinWords exported rest

/-- A final `Id` is written `ID`; the text is given backwards. -/
def raiseId : List Char → List Char
  | 'd' :: 'I' :: before => 'D' :: 'I' :: before
  | reversed => reversed

/-- The identifier of a name. Exported ones begin with upper case; the others are kept apart from
the keywords by an underscore. -/
def ofName (name : String) (exported : Bool) : String :=
  let identifier := String.ofList (raiseId (joined exported name.toList).reverse).reverse
  if !exported && keywords.contains identifier then "_" ++ identifier else identifier

end Identifier

/-! ## Naming rules -/

/-- How names of a document become names of generated code. -/
structure Naming where
  /-- The name of a type, a field or a method. -/
  exported : String → String
  /-- The name of a parameter. -/
  param : String → String

namespace Naming

/-- The names used inside generated methods. -/
def reservedLocals : List String :=
  ["ctx", "f", "q", "row", "rows", "err", "result", "out", "args", "Queries"]

/-- The names the library scaffold declares. -/
def reservedExports : List String := ["Queries", "New", "DBTX", "ErrNoRows", "WithTx"]

/-- A name, kept apart from reserved ones by an underscore behind it. -/
def avoiding (reserved : List String) (name : String) : String :=
  if reserved.contains name then name ++ "_" else name

/-- The rules of generated code. -/
def standard : Naming where
  exported name := avoiding reservedExports (Identifier.ofName name true)
  param name := avoiding reservedLocals (Identifier.ofName name false)

/-- The rules that leave every name as it is. -/
def verbatim : Naming where
  exported name := name
  param name := name

end Naming

end QueryBook
