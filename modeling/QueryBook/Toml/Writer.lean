/-!
# Writing TOML

Strings are written in the form that needs the fewest escapes; arrays of several items have one on
each line.
-/

namespace QueryBook.Toml

/-! ## Forms of strings -/

/-- The forms a string can be written in. -/
inductive StringForm where
  | basic
  | literal
  | multilineBasic
  | multilineLiteral
  deriving DecidableEq

/-- The longest run of a character in a text, `run` of them having been passed last. -/
def longestRun (c : Char) (run : Nat) : List Char → Nat
  | [] => run
  | first :: rest =>
    if first = c then longestRun c (run + 1) rest else max run (longestRun c 0 rest)

/-- Whether a character has to be escaped in every form: a control that is neither a tab nor a line
feed. -/
def needsEscape (c : Char) : Bool :=
  c ≠ '\t' && c ≠ '\n' && (c.toNat < 0x20 || c.toNat = 0x7F)

/-- The form of a text: the first that needs no escapes, of one line before several, quotes before
apostrophes. -/
def formOf (text : List Char) : StringForm :=
  let hasControl := text.any needsEscape
  let hasBackslash := text.contains '\\'
  let hasBreak := text.contains '\n'
  let quotes := longestRun '"' 0 text
  let apostrophes := longestRun '\'' 0 text
  if !hasControl && !hasBackslash && quotes = 0 && !hasBreak then .basic
  else if !hasControl && apostrophes = 0 && !hasBreak then .literal
  else if !hasControl && !hasBackslash && quotes ≤ 2 then .multilineBasic
  else if !hasControl && apostrophes ≤ 2 then .multilineLiteral
  else if hasBreak then .multilineBasic
  else .basic

/-! ## Escapes -/

/-- A number below 256 as four upper-case hexadecimal digits. -/
def hexDigits (n : Nat) : List Char :=
  ['0', '0'] ++ (Nat.toDigits 16 (n / 16) ++ Nat.toDigits 16 (n % 16)).map Char.toUpper

/-- A character of a basic string. `allowed` quotes in a row may stand unescaped, `run` of them have
been written. -/
def escaped (multiline : Bool) (allowed run : Nat) (c : Char) : List Char :=
  if c = '\\' then ['\\', '\\']
  else if c = '"' then if run < allowed then ['"'] else ['\\', '"']
  else if c = '\n' then if multiline then ['\n'] else ['\\', 'n']
  else if c = '\x08' then ['\\', 'b']
  else if c = '\t' then ['\\', 't']
  else if c = '\x0c' then ['\\', 'f']
  else if c = '\r' then ['\\', 'r']
  else if c.toNat < 0x20 || c.toNat = 0x7F then ['\\', 'u'] ++ hexDigits c.toNat
  else [c]

/-- The characters of a basic string. -/
def escapedText (multiline : Bool) (allowed run : Nat) : List Char → List Char
  | [] => []
  | c :: rest =>
    let run' := if c = '"' && run < allowed then run + 1 else 0
    escaped multiline allowed run c ++ escapedText multiline allowed run' rest

/-! ## Values -/

/-- A string, with its quotes. Several lines begin on a line of their own. -/
def writeString (value : String) : String :=
  let text := value.toList
  let start := if text.contains '\n' then ['\n'] else []
  String.ofList <|
    match formOf text with
    | .basic => '"' :: escapedText false 0 0 text ++ ['"']
    | .literal => '\'' :: text ++ ['\'']
    | .multilineBasic => ['"', '"', '"'] ++ start ++ escapedText true 2 0 text ++ ['"', '"', '"']
    | .multilineLiteral => ['\'', '\'', '\''] ++ start ++ text ++ ['\'', '\'', '\'']

/-- A boolean. -/
def writeBoolean (value : Bool) : String := if value then "true" else "false"

/-- An array of strings. -/
def writeStrings (values : List String) : String :=
  match values with
  | [] => "[]"
  | [value] => "[" ++ writeString value ++ "]"
  | _ => "[\n" ++ String.join (values.map fun v => "    " ++ writeString v ++ ",\n") ++ "]"

/-- The line of a key and its written value. -/
def writePair (key written : String) : String := key ++ " = " ++ written ++ "\n"

end QueryBook.Toml
