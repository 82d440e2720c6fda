import QueryBook.Yaml.Cursor
import QueryBook.Yaml.Scalar.Folding

/-!
# Quoted scalars

In single quotes only the quote itself is written specially, as two quotes. In double quotes a
backslash starts an escape; before the end of a line it joins the lines. Lines are folded in both.
-/

namespace QueryBook.Yaml.Quoted

/-! ## Escapes -/

/-- The character that a one-letter escape stands for. -/
def shortEscape? : Char → Option Char
  | '0' => some '\x00'
  | 'a' => some '\x07'
  | 'b' => some '\x08'
  | 't' => some '\t'
  | '\t' => some '\t'
  | 'n' => some '\n'
  | 'v' => some '\x0b'
  | 'f' => some '\x0c'
  | 'r' => some '\r'
  | 'e' => some '\x1b'
  | ' ' => some ' '
  | '"' => some '"'
  | '/' => some '/'
  | '\\' => some '\\'
  | 'N' => some '\u0085'
  | '_' => some '\u00a0'
  | 'L' => some '\u2028'
  | 'P' => some '\u2029'
  | _ => none

/-- The number of hexadecimal digits of a numeric escape. -/
def escapeDigits? : Char → Option Nat
  | 'x' => some 2
  | 'u' => some 4
  | 'U' => some 8
  | _ => none

/-- The character of an escape, given what follows the backslash, and the length of the escape
without the backslash. -/
def escape? : List Char → Option (Char × Nat)
  | [] => none
  | c :: rest =>
    match escapeDigits? c with
    | none => (shortEscape? c).map (·, 1)
    | some digits =>
      if rest.length < digits then none
      else ((hexNumber? 0 (rest.take digits)).bind charOfCodePoint?).map (·, digits + 1)

/-! ## Bodies -/

/-- Whether text may not stand at a place: it is the edge of a document or not indented enough. -/
def isForbidden (indent : Int) (c : Cursor) : Bool :=
  (c.column : Int) < indent || c.atDocumentIndicator

/-- The body of a scalar up to its closing quote, `gap` lying before it. The result ends behind the
closing quote. -/
def body (single : Bool) (indent : Int) (gap : Gap) (c : Cursor) : Option (List Char × Cursor) :=
  match _hc : c.rest with
  | [] => none
  | ch :: rest =>
    if isWhite ch then
      if gap.broken && ch = '\t' && (c.column : Int) < indent then none
      else body single indent (gap.white ch) c.skipWhite
    else if isBreak ch then body single indent gap.lineBreak c.skipBreak
    else if isForbidden indent c then none
    else
      let more (text : List Char) (tail : Option (List Char × Cursor)) :=
        tail.map fun (after, c') => (gap.text ++ text ++ after, c')
      if single then
        if ch = '\'' then
          if rest.head? = some '\'' then more ['\''] (body single indent {} (c.skip 2))
          else some (gap.text, c.skip 1)
        else more [ch] (body single indent {} (c.skip 1))
      else if ch = '"' then some (gap.text, c.skip 1)
      else if ch = '\\' then
        if rest.head?.any isBreak then
          let c' := (c.skip 1).skipBreak
          if c'.next? = some '"' then some (gap.text, c'.skip 1)
          else more [] (body single indent Gap.escapedBreak c')
        else
          match escape? rest with
          | some (value, length) => more [value] (body single indent {} (c.skip (length + 1)))
          | none => none
      else more [ch] (body single indent {} (c.skip 1))
termination_by c.rest.length
decreasing_by
  · simp [_hc]
  · exact Cursor.length_skipBreak_lt (by simp [_hc])
  · simp only [Cursor.rest_skip, _hc, List.length_drop, List.length_cons]; omega
  · simp [_hc]
  · simp only [Cursor.skipBreak, Cursor.rest_skip, _hc, List.length_drop, List.length_cons]
    omega
  · simp only [Cursor.rest_skip, _hc, List.length_drop, List.length_cons]; omega
  · simp [_hc]

/-- Whether what follows a quoted scalar on its line is allowed: the end of the line, a comment,
the end of an entry in a flow collection, or the `:` of a key, which outside flow collections has to
be on the line where the scalar began. -/
def mayEndAt (inFlow : Bool) (firstLine : Nat) (c : Cursor) : Bool :=
  match c.next? with
  | none => true
  | some ch =>
    isBreak ch || (inFlow && (ch = ',' || ch = '}' || ch = ']' || ch = ':')) ||
      (!inFlow && ch = ':' && firstLine = c.line)

/-- A quoted scalar at its opening quote: its text, and the place behind it and the blanks that
follow. -/
def read (single inFlow : Bool) (indent : Int) (c : Cursor) : Option (List Char × Cursor) := do
  let (text, c') ← body single indent {} (c.skip 1)
  let (_, c'') ← c'.skipBlanks true {}
  if mayEndAt inFlow c.line c'' then some (text, c'') else none

end QueryBook.Yaml.Quoted
