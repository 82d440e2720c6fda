import QueryBook.Position
import QueryBook.Yaml.Character

/-!
# A place in the source

A `Cursor` is the rest of a source together with the place where it starts. Reading means moving
it forward; the lemmas say how much shorter the rest becomes.
-/

namespace QueryBook.Yaml

/-- A place in the source, all counted from 0 except the line. -/
structure Mark where
  /-- The number of characters before the place. -/
  index : Nat
  /-- The line, from 1. -/
  line : Nat
  /-- The number of characters before the place on its line. -/
  column : Nat
  deriving DecidableEq

/-- The place as a position, lines and columns from 1. -/
def Mark.position (m : Mark) : Position := ⟨m.line, m.column + 1⟩

/-- The rest of a source and where it starts. -/
structure Cursor where
  /-- The characters still to be read. -/
  rest : List Char
  /-- Where they start. -/
  mark : Mark
  /-- Whether nothing but blanks has been passed on this line. -/
  fresh : Bool

namespace Cursor

/-- The start of a source. -/
def ofSource (source : List Char) : Cursor := ⟨source, ⟨0, 1, 0⟩, true⟩

/-- The next character. -/
def next? (c : Cursor) : Option Char := c.rest.head?

/-- The column, counted from 0. -/
def column (c : Cursor) : Nat := c.mark.column

/-- The line, counted from 1. -/
def line (c : Cursor) : Nat := c.mark.line

/-! ## Moving forward -/

/-- Moves over characters of the line, of which `text` says whether they are more than blanks. -/
def move (c : Cursor) (n : Nat) (text : Bool) : Cursor :=
  { rest := c.rest.drop n
    mark := { c.mark with index := c.mark.index + n, column := c.mark.column + n }
    fresh := c.fresh && !text }

/-- Moves over `n` characters of text. -/
def skip (c : Cursor) (n : Nat) : Cursor := c.move n true

/-- Moves over one blank. -/
def skipWhite (c : Cursor) : Cursor := c.move 1 false

/-- The length of the line break at the start of a text: two for the pair of carriage return and
line feed. -/
def breakLength : List Char → Nat
  | '\r' :: '\n' :: _ => 2
  | _ => 1

/-- Moves over one line break. -/
def skipBreak (c : Cursor) : Cursor :=
  let n := breakLength c.rest
  { rest := c.rest.drop n
    mark := ⟨c.mark.index + n, c.mark.line + 1, 0⟩
    fresh := true }

/-- Moves over all text of the line that satisfies a test. -/
def skipWhile (c : Cursor) (p : Char → Bool) : Cursor :=
  let n := (c.rest.takeWhile p).length
  if n = 0 then c else c.skip n

/-- Moves to the end of the line. -/
def skipLine (c : Cursor) : Cursor := c.skipWhile fun ch => !isBreak ch

@[simp] theorem rest_move (c : Cursor) (n : Nat) (text : Bool) :
    (c.move n text).rest = c.rest.drop n := rfl

@[simp] theorem rest_skip (c : Cursor) (n : Nat) : (c.skip n).rest = c.rest.drop n := rfl

@[simp] theorem rest_skipWhite (c : Cursor) : c.skipWhite.rest = c.rest.drop 1 := rfl

/-- A line break has at least one character. -/
theorem breakLength_pos (text : List Char) : 0 < breakLength text := by
  unfold breakLength
  split <;> decide

/-- Moving over a line break shortens the rest. -/
theorem length_skipBreak_lt {c : Cursor} (h : c.rest ≠ []) :
    c.skipBreak.rest.length < c.rest.length := by
  have hpos := breakLength_pos c.rest
  have hlen := List.length_pos_iff.2 h
  simp only [skipBreak, List.length_drop]
  omega

/-- Moving over a class of characters does not lengthen the rest. -/
theorem length_skipWhile_le (c : Cursor) (p : Char → Bool) :
    (c.skipWhile p).rest.length ≤ c.rest.length := by
  simp only [skipWhile]
  split
  · exact Nat.le_refl _
  · simp

/-! ## What lies ahead -/

/-- Whether the line goes on with three times this character and then a blank or its end. -/
def startsTriple (c : Cursor) (ch : Char) : Bool :=
  c.rest.take 3 == [ch, ch, ch] && endsWord c.rest[3]?

/-- Whether the line is a document start or a document end. -/
def atDocumentIndicator (c : Cursor) : Bool :=
  c.column = 0 && (c.startsTriple '-' || c.startsTriple '.')

/-- What blanks have been passed on the way to the end of a line. -/
structure Blanks where
  /-- Whether there was a tab. -/
  tab : Bool := false
  /-- Whether there was a space. -/
  space : Bool := false

/-- Moves over blanks and a comment to the end of the line; tabs only if `tabs` allows them. A
comment needs a blank before it. -/
def skipBlanks (tabs : Bool) (seen : Blanks) (c : Cursor) : Option (Blanks × Cursor) :=
  match _h : c.rest with
  | ' ' :: _ => skipBlanks tabs { seen with space := true } c.skipWhite
  | '\t' :: _ =>
    if tabs then skipBlanks tabs { seen with tab := true } c.skipWhite else some (seen, c)
  | '#' :: _ => if seen.tab || seen.space then some (seen, c.skipLine) else none
  | _ => some (seen, c)
termination_by c.rest.length
decreasing_by all_goals simp [_h]

/-- Moving over blanks does not lengthen the rest. -/
theorem length_skipBlanks_le {tabs : Bool} {seen seen' : Blanks} {c c' : Cursor}
    (h : skipBlanks tabs seen c = some (seen', c')) : c'.rest.length ≤ c.rest.length := by
  fun_induction skipBlanks tabs seen c with
  | case1 seen c tail hc ih =>
    have := ih h
    simp only [rest_skipWhite, List.length_drop] at this
    omega
  | case2 seen c tail hc ht ih =>
    have := ih h
    simp only [rest_skipWhite, List.length_drop] at this
    omega
  | case3 seen c tail hc ht =>
    cases h
    exact Nat.le_refl _
  | case4 seen c tail hc hs =>
    cases h
    exact length_skipWhile_le _ _
  | case5 => cases h
  | case6 seen c =>
    cases h
    exact Nat.le_refl _

/-- Moves over blanks, tabs included, and a comment; what follows must be the end of the line. -/
def skipToLineEnd (c : Cursor) : Option Cursor :=
  match c.skipBlanks true {} with
  | some (_, c') => if endsLine c'.next? then some c' else none
  | none => none

end Cursor

end QueryBook.Yaml
