import QueryBook.Text.Table.Alphabetic
import QueryBook.Text.Table.Numeric
import QueryBook.Text.Table.Extender
import QueryBook.Text.Table.Unprintable
import QueryBook.Text.Table.WordMark
import QueryBook.Text.Table.Cased
import QueryBook.Text.Table.CaseIgnorable

/-!
# Character classes

The classes of characters the library asks for, all by Unicode property: letters and digits for
names, blanks for trimming, printable characters for quoting and word characters for the edges of
a qualifier.
-/

namespace QueryBook.Text

/-- Membership in a class given by ascending closed ranges. -/
def inRanges : List (Nat × Nat) → Nat → Bool
  | [], _ => false
  | (low, high) :: rest, n => low ≤ n && (n ≤ high || inRanges rest n)

/-! ## Letters and digits -/

/-- Letters, letter numbers and dependent vowel signs. -/
def isAlphabetic (c : Char) : Bool := inRanges Table.alphabetic c.toNat

/-- Decimal digits, letter numbers and other numbers. -/
def isNumeric (c : Char) : Bool := inRanges Table.numeric c.toNat

/-- Letters and digits. -/
def isAlphanumeric (c : Char) : Bool := isAlphabetic c || isNumeric c

/-- Characters of words: letters, marks, decimal digits, connector punctuation, join controls. -/
def isWord (c : Char) : Bool := isAlphabetic c || inRanges Table.wordMark c.toNat

/-! ## Blanks and controls -/

/-- Characters with the property White_Space. -/
def isBlank (c : Char) : Bool :=
  let n := c.toNat
  (9 ≤ n && n ≤ 13) || n == 0x20 || n == 0x85 || n == 0xA0 || n == 0x1680 ||
    (0x2000 ≤ n && n ≤ 0x200A) || n == 0x2028 || n == 0x2029 || n == 0x202F || n == 0x205F ||
    n == 0x3000

/-- Characters of the general category Cc. -/
def isControl (c : Char) : Bool :=
  let n := c.toNat
  n < 0x20 || (0x7F ≤ n && n < 0xA0)

/-! ## Printing -/

/-- Characters that show as themselves: no controls, format characters or unusual separators. -/
def isPrintable (c : Char) : Bool := !inRanges Table.unprintable c.toNat

/-- Characters that attach to the character before them. -/
def isExtender (c : Char) : Bool := inRanges Table.extender c.toNat

/-! ## Case -/

/-- Upper-case, lower-case and title-case letters. -/
def isCased (c : Char) : Bool := inRanges Table.cased c.toNat

/-- Characters skipped when the end of a word is looked for. -/
def isCaseIgnorable (c : Char) : Bool := inRanges Table.caseIgnorable c.toNat

end QueryBook.Text
