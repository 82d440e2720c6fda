import QueryBook.Node
import QueryBook.Text.Lines
import QueryBook.Text.Trim

/-!
# Documentation comments

The comment written above a name, or trailing it, documents what is generated for it. A `Comment`
holds its lines without the `#` marker.
-/

namespace QueryBook

/-- The lines of a comment, without markers. -/
structure Comment where
  lines : List String
  deriving DecidableEq

namespace Comment

/-- The comment without lines. -/
def empty : Comment := ⟨[]⟩

instance : Inhabited Comment := ⟨empty⟩

/-- A raw line without its marker and the blanks around the rest; a line without a marker stays. -/
def stripMarker : List Char → List Char
  | '#' :: rest => Text.trimChars rest
  | line => line

/-- The comment of a raw text, one entry per line. -/
def parse (raw : String) : Comment :=
  ⟨(Text.lines raw.toList).map fun line => String.ofList (stripMarker line)⟩

/-- The raw comment of a node: the one above it, else the one trailing it. -/
def rawOfNode (n : Node) : String :=
  if n.info.headComment.isEmpty then n.info.lineComment else n.info.headComment

/-- The first comment that one of the nodes has. -/
def ofNodes (nodes : List Node) : Comment :=
  match nodes.find? fun n => !(rawOfNode n).isEmpty with
  | some n => parse (rawOfNode n)
  | none => empty

/-- The first line of a comment. -/
def firstLine? (c : Comment) : Option String := c.lines.head?

/-- Whether a comment has no lines. -/
def isEmpty (c : Comment) : Bool := c.lines.isEmpty

/-- Whether a comment has more than one line. -/
def isMultiline (c : Comment) : Bool := 1 < c.lines.length

/-- The lines, each after the marker, joined by line feeds; empty for the empty comment. -/
def format (c : Comment) (marker : String) : String :=
  String.intercalate "\n" (c.lines.map (marker ++ ·))

end Comment

end QueryBook
