import QueryBook.Yaml.Token

/-!
# Events

A document as the sequence of its scalars, aliases, and starts and ends of collections. Anchors are
numbered from 1 in the order in which they are met, and an alias carries the number of its anchor.
-/

namespace QueryBook.Yaml

/-- The kinds of events. -/
inductive EventKind where
  | scalar (text : String) (style : Style) (anchor : Option Nat)
  /-- An alias, by the number of its anchor. -/
  | reference (anchor : Nat)
  | sequenceStart (anchor : Option Nat)
  | sequenceEnd
  | mappingStart (anchor : Option Nat)
  | mappingEnd
  deriving DecidableEq

/-- An event and where it takes place. -/
structure Event where
  kind : EventKind
  position : Position
  deriving DecidableEq

/-- The value that is missing at a position. -/
def Event.missing (position : Position) : Event := ⟨.scalar "~" .plain none, position⟩

end QueryBook.Yaml
