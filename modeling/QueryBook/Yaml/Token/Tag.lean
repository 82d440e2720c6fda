import QueryBook.Yaml.Cursor
import QueryBook.Yaml.Token

/-!
# Tags and directives

Tags do not change what a document means here, but an ill-formed tag makes the document unreadable,
and so does a tag handle that no directive declares.
-/

namespace QueryBook.Yaml.Tag

/-! ## URIs -/

/-- The value of a percent escape at the start of a text. -/
def octet? : List Char → Option Nat
  | '%' :: high :: low :: _ => hexNumber? 0 [high, low]
  | _ => none

/-- The number of octets in the encoding of a character, by its first octet. -/
def octetCount? (first : Nat) : Option Nat :=
  if first < 0x80 then some 1
  else if 0xC0 ≤ first ∧ first < 0xE0 then some 2
  else if 0xE0 ≤ first ∧ first < 0xF0 then some 3
  else if 0xF0 ≤ first ∧ first < 0xF8 then some 4
  else none

/-- The octets after the first, appended to a code. -/
def laterOctets? (code : Nat) : Nat → List Char → Option Nat
  | 0, _ => some code
  | n + 1, text => do
    let octet ← octet? text
    if 0x80 ≤ octet ∧ octet < 0xC0 then laterOctets? (code * 256 + octet) n (text.drop 3) else none

/-- The length of the escaped character at the start of a text. The octets together, taken as one
number, must be a code point. -/
def escapeLength? (text : List Char) : Option Nat := do
  let first ← octet? text
  let count ← octetCount? first
  let code ← laterOctets? first (count - 1) (text.drop 3)
  if code.isValidChar then some (3 * count) else none

/-- Moves over characters of a class, in which `%` starts an escape; counts them. -/
def skipUri (p : Char → Bool) (count : Nat) (c : Cursor) : Option (Nat × Cursor) :=
  match c.rest with
  | [] => some (count, c)
  | ch :: _ =>
    if !p ch then some (count, c)
    else
      let length? := if ch = '%' then escapeLength? c.rest else some 1
      match length? with
      | none => none
      | some length =>
        if h : (c.skip length).rest.length < c.rest.length then
          skipUri p (count + 1) (c.skip length)
        else none
termination_by c.rest.length
decreasing_by exact h

/-! ## Tags -/

/-- Whether a handle has the form `!name!`, which has to be declared. -/
def isNamedHandle (handle : List Char) : Bool :=
  2 ≤ handle.length && handle.head? = some '!' && handle.getLast? = some '!'

/-- The handle at a place: `!`, name characters, possibly another `!`. -/
def readHandle (c : Cursor) : Option (List Char × Cursor) :=
  match c.rest with
  | '!' :: rest =>
    let name := rest.takeWhile isNameChar
    let c' := c.skip (name.length + 1)
    if c'.next? = some '!' then some ('!' :: name ++ ['!'], c'.skip 1)
    else some ('!' :: name, c')
  | _ => none

/-- The tag at a place, by its handle, without looking at what follows it. -/
def readBody (c : Cursor) : Option (String × Cursor) := do
  if c.rest[1]? = some '<' then
    let (_, c) ← skipUri isUriChar 0 (c.skip 2)
    if c.next? = some '>' then some ("", c.skip 1) else none
  else
    let (handle, c) ← readHandle c
    if isNamedHandle handle then
      let (count, c) ← skipUri isTagChar 0 c
      if count = 0 then none else some (String.ofList handle, c)
    else
      let (_, c) ← skipUri isTagChar 0 c
      some ("!", c)

/-- The tag at a place, by its handle. A blank, the end of the line or, in a flow collection, an
indicator has to follow. -/
def read (inFlow : Bool) (c : Cursor) : Option (String × Cursor) := do
  let (handle, c) ← readBody c
  if endsWord c.next? || (inFlow && c.next?.any isFlowIndicator) then some (handle, c) else none

/-! ## Directives -/

/-- Moves over a number of at most nine digits. -/
def skipNumber (c : Cursor) : Option Cursor :=
  let n := (c.rest.takeWhile Char.isDigit).length
  if n = 0 || 9 < n then none else some (c.skip n)

/-- Moves over blanks. -/
def skipWhites (c : Cursor) : Cursor :=
  c.move (c.rest.takeWhile isWhite).length false

/-- The version directive at the place behind its name. -/
def readVersion (c : Cursor) : Option (TokenKind × Cursor) := do
  let c ← skipNumber (skipWhites c)
  if c.next? = some '.' then
    let c ← skipNumber (c.skip 1)
    some (.versionDirective, c)
  else none

/-- Moves over the prefix of a tag directive. -/
def skipTagPrefix (c : Cursor) : Option Cursor :=
  match c.next? with
  | some '!' => (skipUri isUriChar 0 (c.skip 1)).map (·.2)
  | some ch => if isTagChar ch then (skipUri isUriChar 0 c).map (·.2) else none
  | none => none

/-- The tag directive at the place behind its name. -/
def readDeclaration (c : Cursor) : Option (TokenKind × Cursor) := do
  let (handle, c) ← readHandle (skipWhites c)
  if handle ≠ ['!'] && handle.getLast? ≠ some '!' then none
  else
    let c ← skipTagPrefix (skipWhites c)
    if endsWord c.next? then some (.tagDirective (String.ofList handle), c) else none

/-- The directive at its `%`, with its line. -/
def readDirective (c : Cursor) : Option (TokenKind × Cursor) := do
  let c := c.skip 1
  let name := c.rest.takeWhile isNameChar
  let c := c.skip name.length
  if name.isEmpty || !endsWord c.next? then none
  else
    let (kind, c) ←
      if name = ['Y', 'A', 'M', 'L'] then readVersion c
      else if name = ['T', 'A', 'G'] then readDeclaration c
      else some (.tagDirective "", c.skipLine)
    let c ← c.skipToLineEnd
    some (kind, if c.rest.isEmpty then c else c.skipBreak)

end QueryBook.Yaml.Tag
