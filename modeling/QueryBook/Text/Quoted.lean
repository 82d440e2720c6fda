import QueryBook.Text.Class

/-!
# Quoted text

A text in double quotes on one line, for messages: quotes, backslashes and the common controls have
short escapes, all else that would not show as itself is written by its code point.
-/

namespace QueryBook.Text

/-- The escape `\u{…}` of a character, its code point in lower-case hexadecimal. -/
def codePointEscape (c : Char) : List Char :=
  ['\\', 'u', '\x7b'] ++ Nat.toDigits 16 c.toNat ++ ['\x7d']

/-- A character as it stands between the quotes. -/
def quotedChar (c : Char) : List Char :=
  if c = '\x00' then ['\\', '0']
  else if c = '\t' then ['\\', 't']
  else if c = '\r' then ['\\', 'r']
  else if c = '\n' then ['\\', 'n']
  else if c = '\\' then ['\\', '\\']
  else if c = '"' then ['\\', '"']
  else if isExtender c || !isPrintable c then codePointEscape c
  else [c]

/-- The text in quotes. -/
def quotedChars (cs : List Char) : List Char :=
  '"' :: cs.flatMap quotedChar ++ ['"']

/-- The text in quotes. -/
def quoted (text : String) : String := String.ofList (quotedChars text.toList)

end QueryBook.Text
