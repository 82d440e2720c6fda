/-!
# Folding of line breaks

Between two stretches of text in a plain or quoted scalar there may be blanks and line breaks. On
one line the blanks are kept; a single line break reads as one space, and of several line breaks
the first is dropped.
-/

namespace QueryBook.Yaml

/-- The blanks and line breaks passed since the last text of a scalar. -/
structure Gap where
  /-- The blanks, as long as there was no line break, newest first. -/
  blanks : List Char := []
  /-- Whether a line has ended; blanks are indentation from there on. -/
  broken : Bool := false
  /-- Whether the first line break reads as a space; an escaped one does not. -/
  folds : Bool := false
  /-- The number of line breaks after the first. -/
  more : Nat := 0
  deriving DecidableEq

namespace Gap

/-- The gap with another blank; after a line break blanks do not count. -/
def white (g : Gap) (c : Char) : Gap :=
  if g.broken then g else { g with blanks := c :: g.blanks }

/-- The gap with another line break. -/
def lineBreak (g : Gap) : Gap :=
  if g.broken then { g with more := g.more + 1 }
  else { blanks := [], broken := true, folds := true, more := 0 }

/-- The gap after an escaped line break. -/
def escapedBreak : Gap := { broken := true }

/-- What the gap reads as. -/
def text (g : Gap) : List Char :=
  if g.broken then
    if g.folds && g.more = 0 then [' '] else List.replicate g.more '\n'
  else g.blanks.reverse

@[simp] theorem text_empty : ({} : Gap).text = [] := rfl

end Gap

end QueryBook.Yaml
