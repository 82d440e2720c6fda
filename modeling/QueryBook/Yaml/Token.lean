import QueryBook.Position

/-!
# Tokens

A YAML source as a sequence of tokens: the indicators, scalars and properties that are written in
it, and the starts and ends of block collections that follow from the indentation.
-/

namespace QueryBook.Yaml

/-- How a scalar is written. -/
inductive Style where
  | plain
  | singleQuoted
  | doubleQuoted
  | literal
  | folded
  deriving DecidableEq

/-- The kinds of tokens. -/
inductive TokenKind where
  | streamEnd
  | versionDirective
  /-- A directive that declares a tag handle; other directives declare the empty one. -/
  | tagDirective (handle : String)
  | documentStart
  | documentEnd
  | blockSequenceStart
  | blockMappingStart
  | blockEnd
  | flowSequenceStart
  | flowSequenceEnd
  | flowMappingStart
  | flowMappingEnd
  /-- The dash before an entry of a block sequence. -/
  | blockEntry
  /-- The comma between entries of a flow collection. -/
  | flowEntry
  /-- What follows is a key. -/
  | key
  /-- What follows is a value. -/
  | value
  /-- An alias, by the name of its anchor. -/
  | reference (name : String)
  | anchor (name : String)
  /-- A tag, of which only the handle matters. -/
  | tag (handle : String)
  | scalar (style : Style) (text : String)
  deriving DecidableEq

/-- A token and where it starts. -/
structure Token where
  kind : TokenKind
  position : Position
  deriving DecidableEq

/-- The name that an anchor token defines. -/
def Token.anchorName? (t : Token) : Option String :=
  match t.kind with
  | .anchor name => some name
  | _ => none

end QueryBook.Yaml
