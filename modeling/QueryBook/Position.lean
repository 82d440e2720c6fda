/-!
# Source positions

Lines and columns of a document, both counted from 1; columns count characters. The position
`0:0` stands for "nowhere in the document".
-/

namespace QueryBook

/-- Line and column of a node. -/
structure Position where
  /-- The line, from 1; 0 where the position is unknown. -/
  line : Nat
  /-- The column, from 1, in characters. -/
  column : Nat
  deriving DecidableEq

namespace Position

/-- The position that points nowhere. -/
def unknown : Position := ⟨0, 0⟩

instance : Inhabited Position := ⟨unknown⟩

/-- Whether the position points into a document at all. -/
def isKnown (p : Position) : Bool := 0 < p.line

/-- The position as written in messages, `line:column`. -/
def render (p : Position) : String := s!"{p.line}:{p.column}"

end Position

end QueryBook
