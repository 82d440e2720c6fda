import QueryBook.Yaml.Cursor
import QueryBook.Yaml.Token

/-!
# The lexer's state

Whether a scalar is a key shows only at the `:` behind it, and where a block collection starts only
at its first entry. The state keeps the tokens so far, so that one can still be put before an
earlier one, the place where a key may have begun on every level of flow collections, and the
indentation of the open block collections.
-/

namespace QueryBook.Yaml

/-- A place where a key may have begun. -/
structure PendingKey where
  /-- Whether the document is ill-formed if it was no key. -/
  required : Bool
  /-- The number of tokens before it. -/
  number : Nat
  /-- Where it began. -/
  mark : Mark
  deriving DecidableEq

/-- An indentation that will be returned to. -/
structure Indentation where
  /-- The column, -1 outside all blocks. -/
  column : Int
  /-- Whether returning to it ends a block collection. -/
  endsBlock : Bool
  deriving DecidableEq

/-- The state between two tokens. -/
structure Lexer where
  /-- The place in the source. -/
  cursor : Cursor
  /-- The tokens so far, newest first. -/
  emitted : List Token := []
  /-- Whether a key may begin here. -/
  keyAllowed : Bool := true
  /-- The key that may have begun in the innermost flow collection, or outside all of them. -/
  pending : Option PendingKey := none
  /-- The same for the collections around it, innermost first. -/
  outer : List (Option PendingKey) := []
  /-- The current indentation, -1 outside all blocks. -/
  indent : Int := -1
  /-- The indentations around it, innermost first. -/
  indents : List Indentation := []
  /-- The place where a value may follow its `:` without a blank. -/
  adjacentAt : Nat := 0
  /-- Whether a flow mapping or an explicit key has opened since the last single-pair mapping. -/
  braces : Bool := false
  /-- For every open flow sequence, innermost first, whether a single-pair mapping is open in it. -/
  singlePairs : List Bool := []

namespace Lexer

/-- The state at the start of a source. -/
def ofSource (source : List Char) : Lexer := { cursor := Cursor.ofSource source }

/-- Whether a flow collection is open. -/
def inFlow (s : Lexer) : Bool := !s.outer.isEmpty

/-- The place in the source. -/
def mark (s : Lexer) : Mark := s.cursor.mark

/-- The column as a signed number, comparable with indentations. -/
def column (s : Lexer) : Int := s.cursor.column

/-! ## Tokens -/

/-- Adds a token. -/
def emit (s : Lexer) (kind : TokenKind) (position : Position) : Lexer :=
  { s with emitted := ⟨kind, position⟩ :: s.emitted }

/-- Puts a token before the one of a number. -/
def insert (s : Lexer) (number : Nat) (kind : TokenKind) (position : Position) : Lexer :=
  let newer := s.emitted.length - number
  { s with emitted := s.emitted.take newer ++ ⟨kind, position⟩ :: s.emitted.drop newer }

/-- All keys that may have begun. -/
def pendingKeys (s : Lexer) : List PendingKey := (s.pending :: s.outer).filterMap id

/-- The tokens before which nothing can be put any more, oldest first. -/
def settled (s : Lexer) : List Token :=
  let tokens := s.emitted.reverse
  match (s.pendingKeys.map (·.number)).min? with
  | some number => tokens.take number
  | none => tokens

/-! ## Keys -/

/-- Whether a key can no longer be completed: it has to be on one line and not too long. -/
def isStale (s : Lexer) (key : PendingKey) : Bool :=
  !s.inFlow && (key.mark.line < s.mark.line || key.mark.index + 1024 < s.mark.index)

/-- Gives up the keys that can no longer be completed; none of them may be required. -/
def dropStaleKeys (s : Lexer) : Option Lexer :=
  if s.pendingKeys.any fun key => s.isStale key && key.required then none
  else
    let fresh (key? : Option PendingKey) := key?.filter fun key => !s.isStale key
    some { s with pending := fresh s.pending, outer := s.outer.map fresh }

/-- Notes that a key may begin here. A key at the indentation of its block is required. -/
def saveKey (s : Lexer) : Lexer :=
  if s.keyAllowed then
    let required := !s.inFlow && s.indent == s.column && s.indents.head?.any (·.endsBlock)
    { s with pending := some { required, number := s.emitted.length, mark := s.mark } }
  else s

/-- Gives up the innermost key; it may not be required. -/
def removeKey (s : Lexer) : Option Lexer :=
  if s.pending.any (·.required) then none else some { s with pending := none }

/-! ## Indentation -/

/-- Takes back an indentation that was made in case no block follows. -/
def popLooseIndent (s : Lexer) : Lexer :=
  match s.indents with
  | outer :: rest =>
    if outer.endsBlock then s else { s with indent := outer.column, indents := rest }
  | [] => s

/-- Takes back all indentations that end no block. -/
def dropLooseIndents (s : Lexer) : Lexer :=
  match s.indents.dropWhile fun i => !i.endsBlock with
  | rest =>
    match (s.indents.takeWhile fun i => !i.endsBlock).getLast? with
    | some outer => { s with indent := outer.column, indents := rest }
    | none => s

/-- Opens a block collection at a column, if it is deeper than the current indentation; its token
goes to the end, or before the token of a number. -/
def openBlock (s : Lexer) (column : Nat) (number : Option Nat) (kind : TokenKind)
    (position : Position) : Lexer :=
  if s.inFlow then s
  else
    let s := if s.indent ≤ column then s.popLooseIndent else s
    if s.indent < column then
      let s := { s with indents := ⟨s.indent, true⟩ :: s.indents, indent := column }
      match number with
      | some n => s.insert n kind position
      | none => s.emit kind position
    else s

/-- Closes blocks until the indentation is at most a column, `indents` being those around. -/
def closeBlocksFrom (column : Int) (s : Lexer) : List Indentation → Lexer
  | [] => s
  | outer :: rest =>
    if column < s.indent then
      let s := { s with indent := outer.column, indents := rest }
      closeBlocksFrom column (if outer.endsBlock then s.emit .blockEnd s.mark.position else s) rest
    else s

/-- Closes the blocks that are indented deeper than a column. -/
def closeBlocks (s : Lexer) (column : Int) : Lexer :=
  if s.inFlow then s else closeBlocksFrom column s s.indents

/-- Indents by one column inside a block, where the text that follows has to be indented. -/
def indentText (s : Lexer) : Lexer :=
  if !s.inFlow && s.indents.head?.any (·.endsBlock) then
    { s with indents := ⟨s.indent, false⟩ :: s.indents, indent := s.indent + 1 }
  else s

/-! ## Flow collections -/

/-- Whether a `:` here starts a mapping of a single pair in a flow sequence. -/
def startsSinglePair (s : Lexer) : Bool := !s.singlePairs.isEmpty && !s.braces

/-- Notes that a single-pair mapping is open in the innermost flow sequence. -/
def openSinglePair (s : Lexer) : Lexer :=
  match s.singlePairs with
  | _ :: rest => { s with singlePairs := true :: rest }
  | [] => s

/-- Ends the single-pair mapping of the innermost flow sequence, if one is open. -/
def closeSinglePair (s : Lexer) : Lexer :=
  match s.singlePairs with
  | true :: rest =>
    { s with singlePairs := false :: rest, braces := false }.emit .flowMappingEnd s.mark.position
  | _ => s

/-- Enters a flow collection. -/
def enterFlow (s : Lexer) : Lexer := { s with pending := none, outer := s.pending :: s.outer }

/-- Leaves a flow collection. -/
def leaveFlow (s : Lexer) : Lexer :=
  match s.outer with
  | key :: rest => { s with pending := key, outer := rest }
  | [] => s

end Lexer

end QueryBook.Yaml
