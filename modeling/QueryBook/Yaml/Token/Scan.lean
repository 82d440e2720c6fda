import QueryBook.Yaml.Token.Lexer
import QueryBook.Yaml.Token.Tag
import QueryBook.Yaml.Scalar.Plain
import QueryBook.Yaml.Scalar.Quoted
import QueryBook.Yaml.Scalar.Block

/-!
# From source to tokens

`tokens` reads a whole source. Where the source is ill-formed the tokens end without `streamEnd`:
all those are there before which nothing could have been put any more.
-/

namespace QueryBook.Yaml

namespace Lexer

/-! ## Between tokens -/

/-- Moves over blanks, comments and line breaks to the next token. Outside flow collections a key
may begin on every new line; a tab is no indentation. -/
def skipToToken (s : Lexer) : Option Lexer :=
  match _h : s.cursor.rest with
  | [] => some s
  | c :: _ =>
    if c = '\t' && !s.indents.isEmpty && s.cursor.fresh && s.column < s.indent then
      match _hl : s.cursor.skipWhite.skipBlanks true { tab := true } with
      | some (_, cursor) =>
        if endsLine cursor.next? then skipToToken { s with cursor } else none
      | none => none
    else if isWhite c then skipToToken { s with cursor := s.cursor.skipWhite }
    else if isBreak c then
      skipToToken { s with cursor := s.cursor.skipBreak, keyAllowed := s.keyAllowed || !s.inFlow }
    else if c = '#' then
      if s.cursor.skipLine.rest.length < s.cursor.rest.length then
        skipToToken { s with cursor := s.cursor.skipLine }
      else none
    else some s
termination_by s.cursor.rest.length
decreasing_by
  · have hle := Cursor.length_skipBlanks_le _hl
    simp only [Cursor.rest_skipWhite, _h, List.length_drop, List.length_cons] at hle
    simp only [_h, List.length_cons]
    omega
  · simp [_h]
  · exact Cursor.length_skipBreak_lt (by simp [_h])
  · assumption

/-- Moves over blanks and a comment to the end of the line or to the next token on it. -/
def skipOnLine (s : Lexer) : Option Lexer :=
  (s.cursor.skipBlanks true {}).map fun (_, cursor) => { s with cursor }

/-- Moves over spaces, comments and line breaks; at least one space or line break has to be
there. -/
def skipAfterKeyIndicator (s : Lexer) (passed : Bool) : Option Lexer :=
  match _h : s.cursor.rest with
  | [] => if passed then some s else none
  | c :: _ =>
    if c = ' ' then skipAfterKeyIndicator { s with cursor := s.cursor.skipWhite } true
    else if isBreak c then
      skipAfterKeyIndicator
        { s with cursor := s.cursor.skipBreak, keyAllowed := s.keyAllowed || !s.inFlow } true
    else if c = '#' then
      if s.cursor.skipLine.rest.length < s.cursor.rest.length then
        skipAfterKeyIndicator { s with cursor := s.cursor.skipLine } passed
      else none
    else if passed then some s else none
termination_by s.cursor.rest.length
decreasing_by
  · simp [_h]
  · exact Cursor.length_skipBreak_lt (by simp [_h])
  · assumption

/-! ## Documents -/

/-- The end of the source: all blocks end, at the start of the line after the last. -/
def readStreamEnd (s : Lexer) : Option (List Token) :=
  if s.pendingKeys.any (·.required) then none
  else
    let mark := s.mark
    let position : Position :=
      if mark.column = 0 then mark.position else ⟨mark.line + 1, 1⟩
    let ended (s : Lexer) (i : Indentation) : Lexer :=
      if i.endsBlock then s.emit .blockEnd position else s
    let s := if s.inFlow then s else s.indents.foldl ended s
    some (s.emit .streamEnd position).emitted.reverse

/-- Ends all blocks; no key may begin on the rest of the line. -/
def leaveDocument (s : Lexer) : Option Lexer := do
  let s ← (s.closeBlocks (-1)).removeKey
  some { s with keyAllowed := false }

/-- A directive. -/
def readDirective (s : Lexer) : Option Lexer := do
  let s ← s.leaveDocument
  let position := s.mark.position
  let (kind, cursor) ← Tag.readDirective s.cursor
  some ({ s with cursor }.emit kind position)

/-- The start of a document. -/
def readDocumentStart (s : Lexer) : Option Lexer := do
  let s ← s.leaveDocument
  some ({ s with cursor := s.cursor.skip 3 }.emit .documentStart s.mark.position)

/-- The end of a document, with nothing behind it on its line. -/
def readDocumentEnd (s : Lexer) : Option Lexer := do
  let s ← s.leaveDocument
  let cursor ← (s.cursor.skip 3).skipToLineEnd
  some ({ s with cursor }.emit .documentEnd s.mark.position)

/-! ## Flow collections -/

/-- The greatest number of flow collections inside each other. -/
def maxFlowDepth : Nat := 255

/-- The opening bracket of a flow collection. -/
def readFlowStart (s : Lexer) (kind : TokenKind) : Option Lexer := do
  let position := s.mark.position
  let s := s.saveKey.indentText
  if maxFlowDepth ≤ s.outer.length then none
  else
    let s := { s.enterFlow with keyAllowed := true, cursor := s.cursor.skip 1 }
    let s :=
      if kind = .flowMappingStart then { s with braces := true }
      else { s with singlePairs := false :: s.singlePairs }
    let s ← s.skipOnLine
    some (s.emit kind position)

/-- The closing bracket of a flow collection. -/
def readFlowEnd (s : Lexer) (kind : TokenKind) : Option Lexer := do
  let position := s.mark.position
  let s ← s.removeKey
  let s := { s.leaveFlow with keyAllowed := false }
  let s :=
    if kind = .flowSequenceEnd then
      let s := s.closeSinglePair
      { s with singlePairs := s.singlePairs.tail }
    else s
  let s ← { s with cursor := s.cursor.skip 1 }.skipOnLine
  let s := if s.inFlow then { s with adjacentAt := s.mark.index } else s
  some (s.emit kind position)

/-- The comma between entries. -/
def readFlowEntry (s : Lexer) : Option Lexer := do
  let position := s.mark.position
  let s ← s.removeKey
  let s := { s with keyAllowed := true }.closeSinglePair
  let s ← { s with cursor := s.cursor.skip 1 }.skipOnLine
  some (s.emit .flowEntry position)

/-! ## Block collections -/

/-- Whether the token before is a property at the start of its line. -/
def followsPropertyAtMargin (s : Lexer) : Bool :=
  match s.emitted.head? with
  | some ⟨.anchor _, position⟩ | some ⟨.tag _, position⟩ => position.column = 1
  | _ => false

/-- Whether a dash with a blank behind it comes next. -/
def atDash (c : Cursor) : Bool := c.next? = some '-' && endsWord c.rest[1]?

/-- The dash before an entry of a block sequence. Its position is that of what follows it on its
line. -/
def readBlockEntry (s : Lexer) : Option Lexer := do
  if s.inFlow || !s.keyAllowed then none
  else if s.followsPropertyAtMargin && s.cursor.column = 0 && -1 < s.indent then none
  else
    let start := s.mark
    let s := { s with cursor := s.cursor.skip 1 }
    let s := s.openBlock start.column none .blockSequenceStart start.position
    let (blanks, cursor) ← s.cursor.skipBlanks true {}
    if blanks.tab && atDash cursor then none
    else
      let (_, cursor) ← cursor.skipBlanks false {}
      let s := { s with cursor }
      let s :=
        if s.cursor.next?.any fun c => isBreak c || isFlowIndicator c then s.indentText else s
      let s ← s.removeKey
      some ({ s with keyAllowed := true }.emit .blockEntry s.mark.position)

/-- The question mark before an explicit key. -/
def readKey (s : Lexer) : Option Lexer := do
  let start := s.mark
  if !s.inFlow && !s.keyAllowed then none
  else
    let s :=
      if s.inFlow then { s with braces := true }
      else s.openBlock start.column none .blockMappingStart start.position
    let s ← s.removeKey
    let s := { s with keyAllowed := !s.inFlow, cursor := s.cursor.skip 1 }
    let s ← s.skipAfterKeyIndicator false
    if s.cursor.next? = some '\t' then none else some (s.emit .key start.position)

/-- A tab right behind a `:` may not stand before a key or a dash. -/
def skipTabAfterColon (s : Lexer) : Option Lexer :=
  if s.cursor.next? = some '\t' then
    match s.cursor.skipBlanks true {} with
    | none => none
    | some (blanks, cursor) =>
      if !blanks.space && cursor.next?.any fun c => c = '-' || isNameChar c then none
      else some { s with cursor }
  else some s

/-- The `:` between a key and its value. If a key may have begun, it is one now, and a block mapping
starts at it unless one is open at its column. -/
def readValue (s : Lexer) : Option Lexer := do
  let start := s.mark
  let single := s.startsSinglePair
  let s := if single then s.openSinglePair else s
  let s ← { s with cursor := s.cursor.skip 1 }.skipTabAfterColon
  match s.pending with
  | some key =>
    let s := s.insert key.number .key key.mark.position
    if single && key.mark.line < start.line then none
    else
      let s := if single then s.insert key.number .flowMappingStart s.mark.position else s
      let s := s.openBlock key.mark.column (some key.number) .blockMappingStart start.position
      some ({ s.indentText with pending := none, keyAllowed := false }.emit .value start.position)
  | none =>
    let s := if single then s.emit .flowMappingStart s.mark.position else s
    if !s.inFlow && !s.keyAllowed then none
    else
      let s := s.openBlock start.column none .blockMappingStart start.position
      some ({ s.indentText with keyAllowed := !s.inFlow }.emit .value start.position)

/-! ## Properties and scalars -/

/-- The name of an anchor or alias behind its indicator. -/
def readName (s : Lexer) (kind : String → TokenKind) : Option Lexer :=
  let position := s.mark.position
  let s := { s.saveKey with keyAllowed := false }
  let name := (s.cursor.skip 1).rest.takeWhile isAnchorChar
  if name.isEmpty then none
  else
    some ({ s with cursor := s.cursor.skip (name.length + 1) }.emit
      (kind (String.ofList name)) position)

/-- A tag. -/
def readTag (s : Lexer) : Option Lexer := do
  let position := s.mark.position
  let s := { s.saveKey with keyAllowed := false }
  let (handle, cursor) ← Tag.read s.inFlow s.cursor
  some ({ s with cursor }.emit (.tag handle) position)

/-- A block scalar. -/
def readBlock (s : Lexer) (literal : Bool) : Option Lexer := do
  let s := { s.saveKey with keyAllowed := true }.dropLooseIndents
  let (text, mark, cursor) ← Block.read literal s.indent s.cursor
  let style := if literal then .literal else .folded
  some ({ s with cursor }.emit (.scalar style (String.ofList text)) mark.position)

/-- A quoted scalar. -/
def readQuoted (s : Lexer) (single : Bool) : Option Lexer := do
  let position := s.mark.position
  let s := { s.saveKey with keyAllowed := false }
  let (text, cursor) ← Quoted.read single s.inFlow s.indent s.cursor
  let s ← { s with cursor }.skipToToken
  let style := if single then .singleQuoted else .doubleQuoted
  some ({ s with adjacentAt := s.mark.index }.emit (.scalar style (String.ofList text)) position)

/-- A plain scalar. If a line ends behind it, a key may begin on the next. -/
def readPlain (s : Lexer) : Option Lexer := do
  let position := s.mark.position
  let s := { s.saveKey with keyAllowed := false }.dropLooseIndents
  let (text, ended, cursor) ← Plain.read s.inFlow (s.indent + 1) s.cursor
  some ({ s with cursor, keyAllowed := ended }.emit (.scalar .plain (String.ofList text)) position)

/-! ## The next token -/

/-- The token at a place inside a document, by its first character. -/
def readContent (s : Lexer) (c : Char) (following : Option Char) : Option Lexer :=
  let wordEnds := endsWord following
  match c with
  | '[' => s.readFlowStart .flowSequenceStart
  | '{' => s.readFlowStart .flowMappingStart
  | ']' => s.readFlowEnd .flowSequenceEnd
  | '}' => s.readFlowEnd .flowMappingEnd
  | ',' => s.readFlowEntry
  | '-' => if wordEnds then s.readBlockEntry else s.readPlain
  | '?' => if wordEnds then s.readKey else s.readPlain
  | ':' =>
    if wordEnds then s.readValue
    else if s.inFlow && (following.any isFlowIndicator || s.mark.index = s.adjacentAt) then
      s.readValue
    else s.readPlain
  | '*' => s.readName .reference
  | '&' => s.readName .anchor
  | '!' => s.readTag
  | '|' => if s.inFlow then s.readPlain else s.readBlock true
  | '>' => if s.inFlow then s.readPlain else s.readBlock false
  | '\'' => s.readQuoted true
  | '"' => s.readQuoted false
  | '%' => none
  | '@' => none
  | '\x60' => none
  | _ => s.readPlain

/-- What reading the next token comes to. -/
inductive Step where
  /-- The source goes on. -/
  | more (next : Lexer)
  /-- These are all tokens of the source. -/
  | done (tokens : List Token)

/-- Reads the next token, or more than one where blocks end. -/
def step (s : Lexer) : Option Step := do
  let s ← s.skipToToken
  let s ← s.dropStaleKeys
  let s := s.closeBlocks s.column
  match s.cursor.rest with
  | [] => s.readStreamEnd.map .done
  | c :: rest =>
    let margin := s.cursor.column = 0
    if margin && c = '%' then s.readDirective.map .more
    else if margin && s.cursor.startsTriple '-' then s.readDocumentStart.map .more
    else if margin && s.cursor.startsTriple '.' then s.readDocumentEnd.map .more
    else if s.column < s.indent then none
    else (s.readContent c rest.head?).map .more

/-- The tokens of a source from a state on. Every step has to move forward. -/
def run (s : Lexer) : List Token :=
  match s.dropStaleKeys with
  | none => s.settled
  | some current =>
    match current.step with
    | none => current.settled
    | some (.done tokens) => tokens
    | some (.more next) =>
      if next.cursor.rest.length < s.cursor.rest.length then next.run else current.settled
termination_by s.cursor.rest.length

end Lexer

/-- The tokens of a source. A NUL character ends the source. -/
def tokens (source : List Char) : List Token :=
  (Lexer.ofSource (source.takeWhile (· ≠ '\x00'))).run

end QueryBook.Yaml
