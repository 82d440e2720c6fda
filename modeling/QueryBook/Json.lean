/-!
# JSON reports

The values that reports are made of, and how they are written: two spaces for every level, one item
or entry on each line.
-/

namespace QueryBook.Json

/-- A value of a report. -/
inductive Value where
  | string (text : String)
  | number (value : Nat)
  | boolean (value : Bool)
  | array (items : List Value)
  /-- The entries in the order they are written in. -/
  | object (entries : List (String × Value))

/-! ## Strings -/

/-- A character within quotes. Only quotes, backslashes and controls are escaped. -/
def escaped (c : Char) : List Char :=
  match c with
  | '"' => ['\\', '"']
  | '\\' => ['\\', '\\']
  | '\x08' => ['\\', 'b']
  | '\x0c' => ['\\', 'f']
  | '\n' => ['\\', 'n']
  | '\r' => ['\\', 'r']
  | '\t' => ['\\', 't']
  | _ =>
    if c.toNat < 0x20 then
      ['\\', 'u', '0', '0'] ++ Nat.toDigits 16 (c.toNat / 16) ++ Nat.toDigits 16 (c.toNat % 16)
    else [c]

/-- A string in quotes. -/
def quoted (text : String) : String := String.ofList ('"' :: text.toList.flatMap escaped ++ ['"'])

/-! ## Values -/

/-- The break before an item at a level. -/
def newLine (level : Nat) : String := String.ofList ('\n' :: List.replicate (2 * level) ' ')

/-- Written items between brackets, each on a line of its own. -/
def block (level : Nat) (first last : String) (items : List String) : String :=
  if items.isEmpty then first ++ last
  else
    first ++ newLine (level + 1) ++ String.intercalate ("," ++ newLine (level + 1)) items ++
      newLine level ++ last

mutual

/-- A value at a level. -/
def Value.write (level : Nat) : Value → String
  | .string text => quoted text
  | .number value => toString value
  | .boolean value => if value then "true" else "false"
  | .array items => block level "[" "]" (writeItems (level + 1) items)
  | .object entries => block level "\x7b" "\x7d" (writeEntries (level + 1) entries)

/-- The items of an array. -/
def writeItems (level : Nat) : List Value → List String
  | [] => []
  | item :: rest => item.write level :: writeItems level rest

/-- The entries of an object. -/
def writeEntries (level : Nat) : List (String × Value) → List String
  | [] => []
  | (key, value) :: rest =>
    (quoted key ++ ": " ++ value.write level) :: writeEntries level rest

end

/-- The text of a value. -/
def Value.text (v : Value) : String := v.write 0

end QueryBook.Json
