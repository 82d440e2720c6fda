import QueryBook.Queries

/-!
# Canonical documents

Writing queries as a document that reads back as the same queries: one block per query, its keys in
a fixed order, text in the plainest form that is read unchanged.
-/

namespace QueryBook

/-! ## Scalars -/

namespace Canonical

/-- The characters that a plain scalar does not begin with. -/
def indicators : List Char :=
  ['-', '?', ':', ',', '[', ']', '\x7b', '\x7d', '#', '&', '*', '!', '|', '>', '\'', '"', '%', '@',
    '\x60']

/-- Whether a text holds two characters in a row. -/
def hasPair (first second : Char) : List Char → Bool
  | a :: b :: rest => (a = first && b = second) || hasPair first second (b :: rest)
  | _ => false

/-- Whether a text is written plain: it would be taken neither for another construct nor for a
null, and loses nothing at its ends. -/
def isPlainSafe (text : String) : Bool :=
  let cs := text.toList
  match cs, cs.getLast? with
  | first :: _, some last =>
    !Node.isNullText text && !indicators.contains first && !Text.isBlank first &&
      !Text.isBlank last && last != ':' && !hasPair ':' ' ' cs && !hasPair ' ' '#' cs &&
      !cs.any Text.isControl
  | _, _ => false

/-- A number below 256 as two upper-case hexadecimal digits. -/
def hexByte (n : Nat) : List Char :=
  (Nat.toDigits 16 (n / 16) ++ Nat.toDigits 16 (n % 16)).map Char.toUpper

/-- A character between double quotes. -/
def escapedChar (c : Char) : List Char :=
  if c = '"' then ['\\', '"']
  else if c = '\\' then ['\\', '\\']
  else if c = '\n' then ['\\', 'n']
  else if c = '\r' then ['\\', 'r']
  else if c = '\t' then ['\\', 't']
  else if Text.isControl c then ['\\', 'x'] ++ hexByte c.toNat
  else [c]

/-- A text in double quotes. -/
def doubleQuoted (text : String) : String :=
  String.ofList ('"' :: text.toList.flatMap escapedChar ++ ['"'])

/-- A text as a scalar on one line. -/
def scalar (text : String) : String :=
  if isPlainSafe text then text else doubleQuoted text

/-- A number of spaces. -/
def spaces (n : Nat) : String := String.ofList (List.replicate n ' ')

end Canonical

/-! ## SQL -/

/-- The two ways of writing SQL. -/
inductive SqlStyle where
  /-- A literal block. -/
  | literal
  /-- A scalar on one line. -/
  | plain
  deriving DecidableEq

namespace Sql

/-- SQL with line breaks or tabs is written as a block. -/
def style (s : Sql) : SqlStyle :=
  if s.text.toList.any fun c => c = '\n' || c = '\r' || c = '\t' then .literal else .plain

/-- A text as a literal block, its lines indented by a number of spaces. The header gives the
indentation, two below the key, where the first line begins with a space or is empty, and the
chomping that keeps the line breaks at the end as they are. -/
def literalBlock (text : List Char) (indent : Nat) : List Char :=
  let body := Text.dropEndWhile (· = '\n') text
  let trailing := text.length - body.length
  let indicator := if body.head? = some ' ' || body.head? = some '\n' then ['2'] else []
  let chomping := if trailing = 0 then ['-'] else if trailing = 1 then [] else ['+']
  let line (l : List Char) : List Char :=
    '\n' :: (if l.isEmpty then [] else List.replicate indent ' ' ++ l)
  '|' :: indicator ++ chomping ++ (Text.splitOnChar '\n' body).flatMap line ++
    List.replicate (trailing - 1) '\n'

/-- The SQL as the value of a key; the lines of a block are indented by a number of spaces. -/
def toYaml (s : Sql) (indent : Nat) : String :=
  match s.style with
  | .plain => Canonical.scalar s.text
  | .literal => String.ofList (literalBlock s.text.toList indent)

end Sql

/-! ## Documents -/

namespace Canonical

/-- The lines of a comment at an indentation. -/
def commentLines (indent : Nat) (c : Comment) : String :=
  String.join <| c.lines.map fun line =>
    if line.isEmpty then spaces indent ++ "#\n" else spaces indent ++ "# " ++ line ++ "\n"

/-- The line of a field, with its comment above it. -/
def fieldLines (f : Field) : String :=
  commentLines 4 f.comment ++ spaces 4 ++ scalar f.name ++ ": " ++ scalar f.type ++ "\n"

/-- A block of fields under its key. A copy is written as an alias, an empty block not at all. -/
def fieldsLines (key : String) (fs : Fields) : String :=
  if fs.isEmpty then ""
  else
    commentLines 2 fs.comment ++ spaces 2 ++ key ++ ":" ++
      match fs.copyOf, fs.anchor with
      | some name, _ => " *" ++ name ++ "\n"
      | none, some name => " &" ++ name ++ "\n" ++ String.join (fs.list.map fieldLines)
      | none, none => "\n" ++ String.join (fs.list.map fieldLines)

/-- A query under its name. -/
def queryLines (q : Query) : String :=
  commentLines 0 q.comment ++ scalar q.name ++ ":\n" ++
    spaces 2 ++ "type: " ++ q.type.token ++ "\n" ++
    spaces 2 ++ "sql: " ++ q.sql.toYaml 4 ++ "\n" ++
    fieldsLines "params" q.params ++ fieldsLines "out" q.out

end Canonical

/-- The canonical document of queries, an empty line between them. -/
def Queries.toYaml (qs : Queries) : String :=
  String.intercalate "\n" (qs.list.map Canonical.queryLines)

end QueryBook
