import QueryBook.Text.Pieces

/-!
# Paths

A path is a text; what it means are its components. Two paths are the same if their components are,
and paths are ordered by their components.
-/

namespace QueryBook

/-- A component of a path. -/
inductive PathComponent where
  /-- The slash at the start of an absolute path. -/
  | root
  /-- The dot at the start of a relative path. -/
  | here
  /-- Two dots. -/
  | up
  | name (text : String)
  deriving DecidableEq

namespace PathComponent

/-- The rank of a kind of component. -/
def rank : PathComponent → Nat
  | root => 0
  | here => 1
  | up => 2
  | name _ => 3

/-- Components are ordered by kind, names by their text. -/
def before : PathComponent → PathComponent → Bool
  | name a, name b => a < b
  | a, b => a.rank < b.rank

end PathComponent

/-- A path as it is written. -/
abbrev Path := String

namespace Path

/-! ## Components -/

/-- The pieces of a path between its slashes. -/
def pieces (p : Path) : List String := (Text.splitOnChar '/' p.toList).map String.ofList

/-- The component that a piece stands for; empty pieces and dots stand for none. -/
def componentOf? (piece : String) : Option PathComponent :=
  if piece = "" || piece = "." then none
  else if piece = ".." then some .up
  else some (.name piece)

/-- Whether a path is absolute. -/
def isAbsolute (p : Path) : Bool := p.toList.head? = some '/'

/-- The components of a path. -/
def components (p : Path) : List PathComponent :=
  let inner := p.pieces.filterMap componentOf?
  if p.isAbsolute then .root :: inner
  else if p.pieces.head? = some "." then .here :: inner
  else inner

/-- Whether two paths are the same. -/
def same (p q : Path) : Bool := p.components = q.components

/-- The order of lists of components: by the first difference, else the shorter first. -/
def componentsBefore : List PathComponent → List PathComponent → Bool
  | [], [] => false
  | [], _ :: _ => true
  | _ :: _, [] => false
  | a :: as, b :: bs => a.before b || (a = b && componentsBefore as bs)

/-- The order of paths. -/
def before (p q : Path) : Bool := componentsBefore p.components q.components

/-! ## Parts -/

/-- The name a path ends with. -/
def fileName? (p : Path) : Option String :=
  match p.components.getLast? with
  | some (.name text) => some text
  | _ => none

/-- A name split at its last dot: what is before it, and what is behind it if there is something
before it. -/
def splitName (name : String) : String × Option String :=
  let reversed := name.toList.reverse
  let after := reversed.takeWhile (· ≠ '.')
  match reversed.dropWhile (· ≠ '.') with
  | _ :: before =>
    if before.isEmpty || name = ".." then (name, none)
    else (String.ofList before.reverse, some (String.ofList after.reverse))
  | [] => (name, none)

/-- The name a path ends with, without its extension. -/
def fileStem? (p : Path) : Option String := p.fileName?.map fun name => (splitName name).1

/-- The extension of the name a path ends with. -/
def extension? (p : Path) : Option String := p.fileName?.bind fun name => (splitName name).2

/-- The text without pieces at its end that stand for no component, and the slashes before them. A
dot at the start stays, and so does the slash of an absolute path. -/
def trimTail : Nat → List Char → List Char
  | 0, reversed => reversed
  | fuel + 1, reversed =>
    match reversed with
    | '/' :: rest => if rest.isEmpty then reversed else trimTail fuel rest
    | '.' :: '/' :: rest => if rest.isEmpty then ['/'] else trimTail fuel ('/' :: rest)
    | _ => reversed

/-- The path without its last component, if it has one besides the root. -/
def parent? (p : Path) : Option Path :=
  let trim (reversed : List Char) : List Char := trimTail (reversed.length + 1) reversed
  match p.components.getLast? with
  | none => none
  | some .root => none
  | some _ =>
    some (String.ofList (trim ((trim p.toList.reverse).dropWhile (· ≠ '/'))).reverse)

/-- A path relative to another; an absolute one stays. -/
def join (p q : Path) : Path :=
  if q.isAbsolute || p = "" then q
  else if p.toList.getLast? = some '/' then p ++ q
  else p ++ "/" ++ q

end Path

end QueryBook
