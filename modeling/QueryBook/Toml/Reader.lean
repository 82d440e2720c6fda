import QueryBook.Toml.Scalar
import QueryBook.Toml.Value

/-!
# Reading TOML

A document is a row of lines: key and value, header, or comment. Reading gives its entries, or
nothing where it is ill-formed.
-/

namespace QueryBook.Toml

/-! ## Keys and comments -/

/-- A comment behind its `#`, up to the end of the line. -/
def comment? (text : List Char) : Option (List Char) :=
  let rest := text.dropWhile isText
  if rest.isEmpty || (lineBreak? rest).isSome then some rest else none

/-- What may follow on a line: blanks, a comment, and the end of the line. -/
def lineEnd? (text : List Char) : Option (List Char) :=
  match skipWhite text with
  | [] => some []
  | '#' :: rest =>
    (comment? rest).bind fun rest => if rest.isEmpty then some [] else lineBreak? rest
  | rest => lineBreak? rest

/-- A key without dots. -/
def simpleKey? (text : List Char) : Option (String × List Char) :=
  match text with
  | '"' :: _ | '\'' :: _ => keyString? text
  | _ =>
    let name := text.takeWhile isBareKeyChar
    if name.isEmpty then none else some (String.ofList name, text.dropWhile isBareKeyChar)

/-- The greatest number of keys in a dotted key, and of arrays and inline tables inside each
other. -/
def maxDepth : Nat := 79

/-- A dotted key with the blanks around it; fuel counts its keys. -/
def key? : Nat → List Char → Option (List String × List Char)
  | 0, _ => none
  | fuel + 1, text => do
    let (name, rest) ← simpleKey? (skipWhite text)
    match skipWhite rest with
    | '.' :: rest => (key? fuel rest).map fun (names, rest) => (name :: names, rest)
    | rest => some ([name], rest)

/-! ## Values -/

/-- The text behind blanks, line breaks and comments. -/
def skipFiller? : Nat → List Char → Option (List Char)
  | 0, _ => none
  | fuel + 1, text =>
    match skipWhite text with
    | '#' :: rest => (comment? rest).bind (skipFiller? fuel)
    | rest =>
      match lineBreak? rest with
      | some rest => skipFiller? fuel rest
      | none => some rest

/-- A number, a point in time or a special float. -/
def number? (text : List Char) : Option (Value × List Char) :=
  let written (rest : List Char) : String :=
    String.ofList (text.take (text.length - rest.length))
  match dateTime? text with
  | some rest => some (.dateTime (written rest), rest)
  | none =>
    match text with
    | '0' :: 'x' :: rest =>
      (prefixedInteger? 16 (fun c => (hexDigit? c).isSome) rest).map fun (n, r) => (.integer n, r)
    | '0' :: 'o' :: rest =>
      (prefixedInteger? 8 (fun c => '0' ≤ c && c ≤ '7') rest).map fun (n, r) => (.integer n, r)
    | '0' :: 'b' :: rest =>
      (prefixedInteger? 2 (fun c => c = '0' || c = '1') rest).map fun (n, r) => (.integer n, r)
    | _ =>
      match (sign text).2 with
      | 'i' :: 'n' :: 'f' :: rest => some (.float (written rest), rest)
      | 'n' :: 'a' :: 'n' :: rest => some (.float (written rest), rest)
      | _ =>
        (decimal? text).map fun (n, rest) =>
          match n with
          | .inl n => (.integer n, rest)
          | .inr written => (.float written, rest)

mutual

/-- A value; `depth` counts the arrays and inline tables that may still be opened. -/
def value? : Nat → Nat → List Char → Option (Value × List Char)
  | 0, _, _ => none
  | fuel + 1, depth, text =>
    match text with
    | '"' :: _ | '\'' :: _ => (string? text).map fun (s, rest) => (.string s, rest)
    | '[' :: rest =>
      if depth = 0 then none
      else (items? fuel (depth - 1) rest).map fun (items, rest) => (.array items, rest)
    | '\x7b' :: rest =>
      if depth = 0 then none
      else
        match skipWhite rest with
        | '\x7d' :: rest => some (.table .inline [], rest)
        | rest =>
          (pairs? fuel (depth - 1) [] rest).map fun (entries, rest) =>
            (.table .inline entries, rest)
    | 't' :: 'r' :: 'u' :: 'e' :: rest => some (.boolean true, rest)
    | 'f' :: 'a' :: 'l' :: 's' :: 'e' :: rest => some (.boolean false, rest)
    | _ => number? text

/-- The items of an array and its closing bracket; a comma may stand behind the last. -/
def items? : Nat → Nat → List Char → Option (List Value × List Char)
  | 0, _, _ => none
  | fuel + 1, depth, text => do
    match ← skipFiller? (text.length + 1) text with
    | ']' :: rest => some ([], rest)
    | rest =>
      let (item, rest) ← value? fuel depth rest
      match ← skipFiller? (rest.length + 1) rest with
      | ',' :: rest => (items? fuel depth rest).map fun (items, rest) => (item :: items, rest)
      | ']' :: rest => some ([item], rest)
      | _ => none

/-- The pairs of an inline table, of which some have been read, and its closing brace. -/
def pairs? : Nat → Nat → Entries → List Char → Option (Entries × List Char)
  | 0, _, _, _ => none
  | fuel + 1, depth, entries, text => do
    let (keys, rest) ← key? maxDepth text
    let rest ← char? '=' rest
    let (value, rest) ← value? fuel depth (skipWhite rest)
    let (_, entries) ←
      entries.addDotted keys.dropLast (keys.getLast?.getD "") value .header
    match skipWhite rest with
    | ',' :: rest => pairs? fuel depth entries rest
    | '\x7d' :: rest => some (entries, rest)
    | _ => none

end

/-! ## Documents -/

/-- What has been read of a document. -/
structure Document where
  /-- The path of the last header. -/
  header : List String := []
  entries : Entries := []

/-- A line that is a header in single or double brackets, behind its first bracket. -/
def readHeader (d : Document) (text : List Char) : Option (Document × List Char) := do
  let double := text.head? = some '['
  let (keys, rest) ← key? maxDepth (if double then text.drop 1 else text)
  let rest ← char? ']' rest
  let rest ← if double then char? ']' rest else some rest
  let rest ← lineEnd? rest
  let (path, last) := (keys.dropLast, keys.getLast?.getD "")
  let entries ← if double then d.entries.addTable path last else d.entries.openTable path last
  some ({ header := keys, entries }, rest)

/-- A line that is a key and its value. -/
def readPair (d : Document) (text : List Char) : Option (Document × List Char) := do
  let (keys, rest) ← key? maxDepth text
  let rest ← char? '=' rest
  let (value, rest) ← value? (text.length + 1) maxDepth (skipWhite rest)
  let rest ← lineEnd? rest
  let entries ← d.entries.addValue d.header keys.dropLast (keys.getLast?.getD "") value
  some ({ d with entries }, rest)

/-- Reads lines to the end; fuel counts them. -/
def readLines : Nat → Document → List Char → Option Document
  | 0, _, _ => none
  | fuel + 1, d, text =>
    match skipWhite text with
    | [] => some d
    | '#' :: rest =>
      (lineEnd? ('#' :: rest)).bind (readLines fuel d)
    | '[' :: rest => (readHeader d rest).bind fun (d, rest) => readLines fuel d rest
    | text =>
      match lineBreak? text with
      | some rest => readLines fuel d rest
      | none => (readPair d text).bind fun (d, rest) => readLines fuel d rest

/-- The entries of a document. A byte order mark at its start is no part of it. -/
def parse? (source : String) : Option Entries :=
  let text :=
    match source.toList with
    | '\uFEFF' :: rest => rest
    | text => text
  (readLines (text.length + 1) {} text).map (·.entries)

end QueryBook.Toml
