/-!
# Characters of YAML

The classes of characters the YAML grammar distinguishes. Classes of the next character take an
option: `none` is the end of the source.
-/

namespace QueryBook.Yaml

/-! ## Blanks and line breaks -/

/-- Space or tab. -/
def isWhite (c : Char) : Bool := c = ' ' || c = '\t'

/-- Line feed or carriage return. -/
def isBreak (c : Char) : Bool := c = '\n' || c = '\r'

/-- The end of a line or of the source. -/
def endsLine : Option Char → Bool
  | none => true
  | some c => isBreak c

/-- A blank, or the end of a line or of the source. -/
def endsWord : Option Char → Bool
  | none => true
  | some c => isWhite c || isBreak c

/-! ## Indicators and names -/

/-- The brackets and the comma of flow collections. -/
def isFlowIndicator (c : Char) : Bool :=
  c = ',' || c = '[' || c = ']' || c = '{' || c = '}'

/-- Characters of the names of anchors and aliases. -/
def isAnchorChar (c : Char) : Bool :=
  !(isWhite c || isBreak c || isFlowIndicator c || c = '\uFEFF')

/-- Characters of directive names and tag handles: ASCII letters and digits, `_` and `-`. -/
def isNameChar (c : Char) : Bool := c.isAlphanum || c = '_' || c = '-'

/-- Characters of tag URIs. -/
def isUriChar (c : Char) : Bool :=
  isNameChar c ||
    ['#', ';', '/', '?', ':', '@', '&', '=', '+', '$', ',', '.', '!', '~', '*', '\'', '(', ')',
      '[', ']', '%'].contains c

/-- Characters of the part of a tag after its handle. -/
def isTagChar (c : Char) : Bool := isUriChar c && !isFlowIndicator c && c != '!'

/-! ## Hexadecimal digits -/

/-- The value of a hexadecimal digit. -/
def hexValue? (c : Char) : Option Nat :=
  if '0' ≤ c ∧ c ≤ '9' then some (c.toNat - '0'.toNat)
  else if 'a' ≤ c ∧ c ≤ 'f' then some (c.toNat - 'a'.toNat + 10)
  else if 'A' ≤ c ∧ c ≤ 'F' then some (c.toNat - 'A'.toNat + 10)
  else none

/-- The value of a row of hexadecimal digits, on top of a value already read. -/
def hexNumber? (value : Nat) : List Char → Option Nat
  | [] => some value
  | c :: rest => (hexValue? c).bind fun digit => hexNumber? (value * 16 + digit) rest

/-- The character of a code point, if it is one. -/
def charOfCodePoint? (n : Nat) : Option Char :=
  if n.isValidChar then some (Char.ofNat n) else none

end QueryBook.Yaml
