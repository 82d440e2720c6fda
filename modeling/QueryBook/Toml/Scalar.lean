/-!
# TOML scalars

Strings in their four forms, numbers, booleans and points in time. Each reader takes the text from
where the scalar begins and gives what it means and the text behind it.
-/

namespace QueryBook.Toml

/-! ## Characters -/

/-- Space or tab. -/
def isWhite (c : Char) : Bool := c = ' ' || c = '\t'

/-- Characters that may stand in strings and comments: no controls but the tab. -/
def isText (c : Char) : Bool := c = '\t' || (0x20 ≤ c.toNat && c.toNat ≠ 0x7F)

/-- Characters of bare keys. -/
def isBareKeyChar (c : Char) : Bool := c.isAlphanum || c = '_' || c = '-'

/-- The text without blanks at its start. -/
def skipWhite (text : List Char) : List Char := text.dropWhile isWhite

/-- The text behind a line break at its start. -/
def lineBreak? : List Char → Option (List Char)
  | '\n' :: rest => some rest
  | '\r' :: '\n' :: rest => some rest
  | _ => none

/-- The text behind one character, if that is the one asked for. -/
def char? (c : Char) : List Char → Option (List Char)
  | first :: rest => if first = c then some rest else none
  | [] => none

/-! ## Strings -/

/-- The value of a hexadecimal digit. -/
def hexDigit? (c : Char) : Option Nat :=
  if '0' ≤ c ∧ c ≤ '9' then some (c.toNat - 48)
  else if 'a' ≤ c ∧ c ≤ 'f' then some (c.toNat - 87)
  else if 'A' ≤ c ∧ c ≤ 'F' then some (c.toNat - 55)
  else none

/-- The character whose code point has a number of hexadecimal digits. -/
def codePoint? (digits : Nat) (text : List Char) : Option (Char × List Char) := do
  let step (n : Nat) (c : Char) : Option Nat := (hexDigit? c).map (n * 16 + ·)
  let n ← (text.take digits).foldlM step 0
  if (text.take digits).length = digits && n.isValidChar then
    some (Char.ofNat n, text.drop digits)
  else none

/-- The character of an escape behind its backslash. -/
def escape? : List Char → Option (Char × List Char)
  | 'b' :: rest => some ('\x08', rest)
  | 't' :: rest => some ('\t', rest)
  | 'n' :: rest => some ('\n', rest)
  | 'f' :: rest => some ('\x0c', rest)
  | 'r' :: rest => some ('\r', rest)
  | '"' :: rest => some ('"', rest)
  | '\\' :: rest => some ('\\', rest)
  | 'u' :: rest => codePoint? 4 rest
  | 'U' :: rest => codePoint? 8 rest
  | _ => none

/-- A basic string behind its opening quote; fuel counts the characters. -/
def basic? : Nat → List Char → Option (List Char × List Char)
  | 0, _ => none
  | _ + 1, [] => none
  | fuel + 1, c :: rest =>
    if c = '"' then some ([], rest)
    else if c = '\\' then do
      let (value, rest) ← escape? rest
      (basic? fuel rest).map fun (text, after) => (value :: text, after)
    else if isText c then (basic? fuel rest).map fun (text, after) => (c :: text, after)
    else none

/-- A literal string behind its opening quote. -/
def literal? : List Char → Option (List Char × List Char)
  | [] => none
  | c :: rest =>
    if c = '\'' then some ([], rest)
    else if isText c then (literal? rest).map fun (text, after) => (c :: text, after)
    else none

/-- The end of a string of several lines at a text: three quotes, and up to two more before them
that belong to the string. -/
def multilineEnd? (quote : Char) (text : List Char) : Option (List Char × List Char) :=
  let n := (text.takeWhile (· = quote)).length
  if n < 3 then none
  else
    let kept := min (n - 3) 2
    some (List.replicate kept quote, text.drop (kept + 3))

/-- The text behind blanks and line breaks. -/
def skipBlankLines : List Char → List Char
  | ' ' :: rest => skipBlankLines rest
  | '\t' :: rest => skipBlankLines rest
  | '\n' :: rest => skipBlankLines rest
  | '\r' :: '\n' :: rest => skipBlankLines rest
  | text => text

/-- A basic string of several lines behind its opening quotes; fuel counts the characters. -/
def multilineBasic? : Nat → List Char → Option (List Char × List Char)
  | 0, _ => none
  | fuel + 1, text =>
    match multilineEnd? '"' text with
    | some final => some final
    | none =>
      let more (value : Char) (rest : List Char) : Option (List Char × List Char) :=
        (multilineBasic? fuel rest).map fun (text, after) => (value :: text, after)
      match lineBreak? text with
      | some rest => more '\n' rest
      | none =>
        match text with
        | [] => none
        | c :: rest =>
          if c = '\\' then
            match lineBreak? (skipWhite rest) with
            | some rest => multilineBasic? fuel (skipBlankLines rest)
            | none => (escape? rest).bind fun (value, rest) => more value rest
          else if isText c then more c rest
          else none

/-- A literal string of several lines behind its opening quotes; fuel counts the characters. -/
def multilineLiteral? : Nat → List Char → Option (List Char × List Char)
  | 0, _ => none
  | fuel + 1, text =>
    match multilineEnd? '\'' text with
    | some final => some final
    | none =>
      let more (value : Char) (rest : List Char) : Option (List Char × List Char) :=
        (multilineLiteral? fuel rest).map fun (text, after) => (value :: text, after)
      match lineBreak? text with
      | some rest => more '\n' rest
      | none =>
        match text with
        | [] => none
        | c :: rest => if isText c then more c rest else none

/-- The text behind the line break that may follow the opening quotes of several lines. -/
def skipFirstBreak (text : List Char) : List Char := (lineBreak? text).getD text

/-- A string in any of its forms. -/
def string? (text : List Char) : Option (String × List Char) :=
  let fuel := text.length + 1
  let read : Option (List Char × List Char) :=
    match text with
    | '"' :: '"' :: '"' :: rest => multilineBasic? fuel (skipFirstBreak rest)
    | '\'' :: '\'' :: '\'' :: rest => multilineLiteral? fuel (skipFirstBreak rest)
    | '"' :: rest => basic? fuel rest
    | '\'' :: rest => literal? rest
    | _ => none
  read.map fun (value, rest) => (String.ofList value, rest)

/-- A string on one line, as keys may be. -/
def keyString? (text : List Char) : Option (String × List Char) :=
  let read : Option (List Char × List Char) :=
    match text with
    | '"' :: rest => basic? (text.length + 1) rest
    | '\'' :: rest => literal? rest
    | _ => none
  read.map fun (value, rest) => (String.ofList value, rest)

/-! ## Numbers -/

/-- Digits, between which single underscores may stand; without them. -/
def digits? (p : Char → Bool) : List Char → Option (List Char × List Char)
  | [] => none
  | c :: rest =>
    if !p c then none
    else
      match rest with
      | [] => some ([c], [])
      | '_' :: after => (digits? p after).map fun (more, text) => (c :: more, text)
      | next :: after =>
        if p next then (digits? p (next :: after)).map fun (more, text) => (c :: more, text)
        else some ([c], next :: after)

/-- The value of digits in a base. -/
def digitsValue (base : Nat) (ds : List Char) : Nat :=
  ds.foldl (fun n d => n * base + (hexDigit? d).getD 0) 0

/-- The greatest integer. -/
def maxInteger : Nat := 9223372036854775807

/-- An integer with a base prefix. -/
def prefixedInteger? (base : Nat) (p : Char → Bool) (text : List Char) :
    Option (Int × List Char) := do
  let (ds, rest) ← digits? p text
  let n := digitsValue base ds
  if n ≤ maxInteger then some (n, rest) else none

/-- A sign, if there is one: whether it is a minus. -/
def sign : List Char → Bool × List Char
  | '+' :: rest => (false, rest)
  | '-' :: rest => (true, rest)
  | text => (false, text)

/-- The digits of a decimal number before its point; there is no leading zero. -/
def wholeDigits? (text : List Char) : Option (List Char × List Char) := do
  let (ds, rest) ← digits? Char.isDigit text
  if ds.head? = some '0' && 1 < ds.length then none else some (ds, rest)

/-- Whether the decimal number of digits and an exponent is too great for a float. -/
def isTooGreat (ds : List Char) (exponent : Int) : Bool :=
  let n := digitsValue 10 ds
  let size := (Nat.toDigits 10 n).length + exponent
  if n = 0 || size < 300 then false
  else if 320 < size then true
  else
    let bound := Nat.pow 2 1024 - Nat.pow 2 970
    if 0 ≤ exponent then bound ≤ n * Nat.pow 10 exponent.toNat
    else bound * Nat.pow 10 (-exponent).toNat ≤ n

/-- The exponent of a float, if there is one. -/
def exponent? (text : List Char) : Option (Option Int × List Char) :=
  match text with
  | c :: rest =>
    if c = 'e' || c = 'E' then do
      let (minus, rest) := sign rest
      let (ds, rest) ← digits? Char.isDigit rest
      let n : Int := digitsValue 10 ds
      some (some (if minus then -n else n), rest)
    else some (none, text)
  | [] => some (none, [])

/-- The fraction of a float, if there is one. -/
def fraction? (text : List Char) : Option (Option (List Char) × List Char) :=
  match text with
  | '.' :: rest => (digits? Char.isDigit rest).map fun (ds, rest) => (some ds, rest)
  | _ => some (none, text)

/-- A number with its sign: an integer, or a float if it has a fraction or an exponent. -/
def decimal? (text : List Char) : Option ((Int ⊕ String) × List Char) := do
  let (minus, rest) := sign text
  let (whole, rest) ← wholeDigits? rest
  let (fraction, rest) ← fraction? rest
  let (exponent, rest) ← exponent? rest
  if fraction.isNone && exponent.isNone then
    let n := digitsValue 10 whole
    if n ≤ (if minus then maxInteger + 1 else maxInteger) then
      some (.inl (if minus then -n else n), rest)
    else none
  else
    let ds := whole ++ fraction.getD []
    let shift : Int := exponent.getD 0 - (fraction.getD []).length
    if !minus && isTooGreat ds shift then none
    else some (.inr (String.ofList (text.take (text.length - rest.length))), rest)

/-! ## Points in time -/

/-- A number of a fixed count of digits between bounds. -/
def field? (count low high : Nat) (text : List Char) : Option (Nat × List Char) :=
  let ds := text.take count
  let n := digitsValue 10 ds
  if ds.length = count && ds.all Char.isDigit && low ≤ n && n ≤ high then
    some (n, text.drop count)
  else none

/-- The number of days of a month. -/
def daysIn (year month : Nat) : Nat :=
  if month = 2 then
    if year % 4 = 0 && (year % 100 ≠ 0 || year % 400 = 0) then 29 else 28
  else if [4, 6, 9, 11].contains month then 30
  else 31

/-- The text behind a date. -/
def date? (text : List Char) : Option (List Char) := do
  let (year, rest) ← field? 4 0 9999 text
  let rest ← char? '-' rest
  let (month, rest) ← field? 2 1 12 rest
  let rest ← char? '-' rest
  let (_, rest) ← field? 2 1 (daysIn year month) rest
  some rest

/-- The text behind the fraction of a second. -/
def secondFraction? : List Char → Option (List Char)
  | '.' :: rest =>
    if rest.head?.any Char.isDigit then some (rest.dropWhile Char.isDigit) else none
  | text => some text

/-- The text behind a time of day. -/
def time? (text : List Char) : Option (List Char) := do
  let (_, rest) ← field? 2 0 23 text
  let rest ← char? ':' rest
  let (_, rest) ← field? 2 0 59 rest
  let rest ← char? ':' rest
  let (_, rest) ← field? 2 0 60 rest
  secondFraction? rest

/-- The text behind the distance from universal time, if there is one. -/
def offset? (text : List Char) : Option (List Char) :=
  match text with
  | c :: rest =>
    if c = 'Z' || c = 'z' then some rest
    else if c = '+' || c = '-' then do
      let (_, rest) ← field? 2 0 23 rest
      let rest ← char? ':' rest
      let (_, rest) ← field? 2 0 59 rest
      some rest
    else some text
  | [] => some []

/-- The text behind a date, a date and a time, or a time. -/
def dateTime? (text : List Char) : Option (List Char) :=
  match date? text with
  | some rest =>
    match rest with
    | c :: after =>
      if (c = 'T' || c = 't' || c = ' ') && after.head?.any Char.isDigit then
        (time? after).bind offset?
      else some rest
    | [] => some []
  | none => time? text

end QueryBook.Toml
