import QueryBook.Yaml.Cursor

/-!
# Block scalars

A block scalar is a header (`|` or `>`, how to treat the line breaks at the end, possibly the
indentation) and lines indented under it. Literal blocks keep their line breaks; in folded ones a
line break between two lines that do not start with a blank reads as a space.
-/

namespace QueryBook.Yaml.Block

/-! ## Header -/

/-- What becomes of the line breaks at the end of a block. -/
inductive Chomping where
  /-- All are dropped. -/
  | strip
  /-- One is kept. -/
  | clip
  /-- All are kept. -/
  | keep
  deriving DecidableEq

/-- The chomping an indicator asks for. -/
def Chomping.ofChar? : Char → Option Chomping
  | '+' => some keep
  | '-' => some strip
  | _ => none

/-- How a block is to be read. -/
structure Header where
  chomping : Chomping := .clip
  /-- The indentation below that of the block around it, if the header gives it. -/
  increment : Option Nat := none

/-- The chomping indicator at a place, if there is one. -/
def readChomping (c : Cursor) : Option Chomping × Cursor :=
  match c.next?.bind Chomping.ofChar? with
  | some chomping => (some chomping, c.skip 1)
  | none => (none, c)

/-- The indentation indicator at a place, if there is one; it is not zero. -/
def readIncrement (c : Cursor) : Option (Option Nat × Cursor) :=
  match c.next? with
  | some d =>
    if d = '0' then none
    else if d.isDigit then some (some (d.toNat - '0'.toNat), c.skip 1)
    else some (none, c)
  | none => some (none, c)

/-- The header at the place behind `|` or `>`, its two indicators in either order, up to the end of
its line. -/
def readHeader (c : Cursor) : Option (Header × Cursor) := do
  let (first, c) := readChomping c
  let (increment, c) ← readIncrement c
  let (second, c) := if first.isNone && increment.isSome then readChomping c else (none, c)
  let c ← c.skipToLineEnd
  some ({ chomping := (first.or second).getD .clip, increment }, c)

/-! ## Indentation -/

/-- Moves over empty lines and over up to `indent` spaces of the line after them; counts the
lines. -/
def skipIndent (indent : Nat) (breaks : Nat) (c : Cursor) : Nat × Cursor :=
  match hc : c.rest with
  | [] => (breaks, c)
  | ch :: _ =>
    if ch = ' ' && c.column < indent then skipIndent indent breaks c.skipWhite
    else if isBreak ch then skipIndent indent (breaks + 1) c.skipBreak
    else (breaks, c)
termination_by c.rest.length
decreasing_by
  · simp [hc]
  · exact Cursor.length_skipBreak_lt (by simp [hc])

/-- Moves over empty lines and the spaces of the line after them; counts the lines and finds the
deepest column reached. -/
def skipFirstIndent (deepest breaks : Nat) (c : Cursor) : Nat × Nat × Cursor :=
  match hc : c.rest with
  | [] => (max deepest c.column, breaks, c)
  | ch :: _ =>
    if ch = ' ' then skipFirstIndent deepest breaks c.skipWhite
    else if isBreak ch then skipFirstIndent (max deepest c.column) (breaks + 1) c.skipBreak
    else (max deepest c.column, breaks, c)
termination_by c.rest.length
decreasing_by
  · simp [hc]
  · exact Cursor.length_skipBreak_lt (by simp [hc])

/-- The indentation of the lines of a block, the line breaks before the first line with text, and
the place where its text starts. `outer` is the indentation of the block around it, -1 if there is
none. -/
def findIndent (outer : Int) (increment : Option Nat) (c : Cursor) : Nat × Nat × Cursor :=
  match increment with
  | some n =>
    let indent := (max outer 0).toNat + n
    (indent, skipIndent indent 0 c)
  | none =>
    let (deepest, breaks, c') := skipFirstIndent 0 0 c
    let indent := max deepest (outer + 1).toNat
    (if 0 < outer then max indent 1 else indent, breaks, c')

/-! ## Lines -/

/-- The lines of a block that are still to be read, and what has been read of it. -/
structure Lines where
  /-- The text so far, newest first. -/
  text : List Char := []
  /-- Whether a line has been read whose break is still to be written. -/
  broken : Bool := false
  /-- The number of empty lines since. -/
  more : Nat := 0
  /-- Whether the last line started with a blank. -/
  blank : Bool := false

/-- The text of the line breaks before a line. A literal block, and lines that start with a blank,
keep them all. -/
def Lines.separator (literal : Bool) (s : Lines) (blank : Bool) : List Char :=
  if !literal && s.broken && !s.blank && !blank then
    if s.more = 0 then [' '] else List.replicate s.more '\n'
  else (if s.broken then ['\n'] else []) ++ List.replicate s.more '\n'

/-- Reads lines as long as they are indented by `indent`. -/
def readLines (literal : Bool) (indent : Nat) (s : Lines) (c : Cursor) : Lines × Cursor :=
  if c.column ≠ indent || (indent = 0 && c.startsTriple '.') then (s, c)
  else
    match c.rest with
    | [] => (s, c)
    | ch :: _ =>
      let blank := isWhite ch
      let line := c.rest.takeWhile fun x => !isBreak x
      let text := line.reverse ++ (s.separator literal blank).reverse ++ s.text
      let c' := if line.isEmpty then c else c.move line.length false
      if c'.rest.isEmpty then ({ text, broken := false, more := 0, blank }, c')
      else
        let (more, c'') := skipIndent indent 0 c'.skipBreak
        if c''.rest.length < c.rest.length then
          readLines literal indent { text, broken := true, more, blank } c''
        else ({ text, broken := true, more, blank }, c'')
termination_by c.rest.length

/-- The text of a block with its tail. A last line that ends with the source counts as ended. -/
def Lines.close (chomping : Chomping) (indent : Nat) (s : Lines) (c : Cursor) : List Char :=
  let ended := if s.broken then ['\n'] else []
  let unended := if c.rest.isEmpty && max indent 1 ≤ c.column then ['\n'] else []
  let kept := List.replicate s.more '\n'
  s.text.reverse ++
    match chomping with
    | .strip => []
    | .clip => ended ++ unended
    | .keep => ended ++ unended ++ kept

/-- A block that is followed by nothing: its text comes from the line breaks alone. -/
def blankText (chomping : Chomping) (headerEnded : Bool) (breaks : Nat) : List Char :=
  if !headerEnded then []
  else
    match chomping with
    | .strip => []
    | .clip => ['\n']
    | .keep => if breaks = 0 then ['\n'] else List.replicate breaks '\n'

/-! ## Blocks -/

/-- A block scalar at its indicator: its text, the place it counts from and the place behind it.
`outer` is the indentation of the block around it. -/
def read (literal : Bool) (outer : Int) (start : Cursor) : Option (List Char × Mark × Cursor) := do
  let (header, c) ← readHeader (start.skip 1)
  let headerEnded := !c.rest.isEmpty
  let c := if headerEnded then c.skipBreak else c
  if c.next? = some '\t' then none
  else
    let (indent, breaks, c) := findIndent outer header.increment c
    if c.rest.isEmpty then
      some (blankText header.chomping (c.line ≠ start.line) breaks, start.mark, c)
    else if c.column < indent && outer < (c.column : Int) then none
    else
      let (lines, c') := readLines literal indent { more := breaks } c
      some (lines.close header.chomping indent c', c.mark, c')

end QueryBook.Yaml.Block
