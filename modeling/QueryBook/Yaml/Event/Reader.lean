import QueryBook.Yaml.Event
import QueryBook.Yaml.Token.Tag

/-!
# From tokens to events

The grammar of documents over tokens, by recursive descent. Only the first document of a source is
read. Reading fails at a token that the grammar does not allow and where the tokens end early.
-/

namespace QueryBook.Yaml

/-- What is known while a document is read. -/
structure Progress where
  /-- The tokens still to be read. -/
  tokens : List Token
  /-- The number of the next anchor. -/
  nextAnchor : Nat := 1
  /-- The numbers of the anchors so far, by name; the newest first. -/
  anchors : List (String × Nat) := []
  /-- The tag handles that are declared. -/
  handles : List String := []

/-- Reading tokens, which can fail. -/
abbrev EventReader := StateT Progress Option

namespace EventReader

/-! ## Tokens -/

/-- The next token. -/
def peek : EventReader Token := do
  match (← get).tokens with
  | token :: _ => pure token
  | [] => failure

/-- Passes over the next token. -/
def skip : EventReader Unit := modify fun p => { p with tokens := p.tokens.tail }

/-- Passes over the next token if it is of a kind; says whether it was. -/
def skipIf (kind : TokenKind) : EventReader Bool := do
  if (← peek).kind = kind then
    skip
    pure true
  else pure false

/-! ## Properties of a node -/

/-- Numbers an anchor. -/
def define (name : String) : EventReader Nat := do
  let p ← get
  set { p with nextAnchor := p.nextAnchor + 1, anchors := (name, p.nextAnchor) :: p.anchors }
  pure p.nextAnchor

/-- Checks that the handle of a tag is known. -/
def checkHandle (handle : String) : EventReader Unit := do
  let p ← get
  if Tag.isNamedHandle handle.toList && handle ≠ "!!" && !p.handles.contains handle then failure

/-- The anchor and the tag of a node, in either order: the anchor's number and whether there is a
tag. -/
def properties : EventReader (Option Nat × Bool) := do
  match (← peek).kind with
  | .anchor name =>
    skip
    let number ← define name
    match (← peek).kind with
    | .tag handle =>
      skip
      checkHandle handle
      pure (some number, true)
    | _ => pure (some number, false)
  | .tag handle =>
    skip
    checkHandle handle
    match (← peek).kind with
    | .anchor name =>
      skip
      let number ← define name
      pure (some number, true)
    | _ => pure (none, true)
  | _ => pure (none, false)

/-! ## Nodes -/

/-- Either the missing value, if the next token is of one of these kinds, or what is read. -/
def missingOr (kinds : List TokenKind) (read : EventReader (List Event)) :
    EventReader (List Event) := do
  let token ← peek
  if kinds.contains token.kind then pure [.missing token.position] else read

mutual

/-- A node. `block` allows block collections, `indentless` a block sequence that is not indented
deeper than the key it belongs to. -/
def node : Nat → Bool → Bool → EventReader (List Event)
  | 0, _, _ => failure
  | fuel + 1, block, indentless => do
    let token ← peek
    match token.kind with
    | .reference name =>
      skip
      match (← get).anchors.lookup name with
      | some number => pure [⟨.reference number, token.position⟩]
      | none => failure
    | _ =>
      let (anchor, tagged) ← properties
      let token ← peek
      match token.kind with
      | .scalar style text =>
        skip
        pure [⟨.scalar text style anchor, token.position⟩]
      | .flowSequenceStart =>
        skip
        let items ← flowItems fuel true
        pure (⟨.sequenceStart anchor, token.position⟩ :: items)
      | .flowMappingStart =>
        skip
        let pairs ← flowPairs fuel true
        pure (⟨.mappingStart anchor, token.position⟩ :: pairs)
      | kind =>
        if kind = .blockEntry && indentless then
          let items ← indentlessItems fuel
          pure (⟨.sequenceStart anchor, token.position⟩ :: items)
        else if kind = .blockSequenceStart && block then
          skip
          let items ← blockItems fuel
          pure (⟨.sequenceStart anchor, token.position⟩ :: items)
        else if kind = .blockMappingStart && block then
          skip
          let pairs ← blockPairs fuel
          pure (⟨.mappingStart anchor, token.position⟩ :: pairs)
        else if anchor.isSome || tagged then
          pure [⟨.scalar "" .plain anchor, token.position⟩]
        else failure

/-- The entries of a block sequence and its end. -/
def blockItems : Nat → EventReader (List Event)
  | 0 => failure
  | fuel + 1 => do
    let token ← peek
    match token.kind with
    | .blockEntry =>
      skip
      let item ← missingOr [.blockEntry, .blockEnd] (node fuel true false)
      return item ++ (← blockItems fuel)
    | .blockEnd =>
      skip
      pure [⟨.sequenceEnd, token.position⟩]
    | _ => failure

/-- The entries of a block sequence that ends where no dash follows. -/
def indentlessItems : Nat → EventReader (List Event)
  | 0 => failure
  | fuel + 1 => do
    let token ← peek
    match token.kind with
    | .blockEntry =>
      skip
      let item ← missingOr [.blockEntry, .key, .value, .blockEnd] (node fuel true false)
      return item ++ (← indentlessItems fuel)
    | _ => pure [⟨.sequenceEnd, token.position⟩]

/-- The pairs of a block mapping and its end. -/
def blockPairs : Nat → EventReader (List Event)
  | 0 => failure
  | fuel + 1 => do
    let token ← peek
    match token.kind with
    | .key =>
      skip
      let key ← missingOr [.key, .value, .blockEnd] (node fuel true true)
      let value ← blockValue fuel
      return key ++ value ++ (← blockPairs fuel)
    | .value =>
      let value ← blockValue fuel
      return .missing token.position :: value ++ (← blockPairs fuel)
    | .blockEnd =>
      skip
      pure [⟨.mappingEnd, token.position⟩]
    | _ => failure

/-- The value of a pair of a block mapping. -/
def blockValue : Nat → EventReader (List Event)
  | 0 => failure
  | fuel + 1 => do
    let token ← peek
    if token.kind = .value then
      skip
      missingOr [.key, .value, .blockEnd] (node fuel true true)
    else pure [.missing token.position]

/-- The pairs of a flow mapping and its end; all but the first need a comma before them. -/
def flowPairs : Nat → Bool → EventReader (List Event)
  | 0, _ => failure
  | fuel + 1, first => do
    let ending ← peek
    if ending.kind = .flowMappingEnd then
      skip
      pure [⟨.mappingEnd, ending.position⟩]
    else
      if !first then
        if !(← skipIf .flowEntry) then failure
      let token ← peek
      match token.kind with
      | .key =>
        skip
        let key ← missingOr [.value, .flowEntry, .flowMappingEnd] (node fuel false false)
        let value ← flowValue fuel
        return key ++ value ++ (← flowPairs fuel false)
      | .value =>
        let value ← flowValue fuel
        return .missing token.position :: value ++ (← flowPairs fuel false)
      | .flowMappingEnd =>
        skip
        pure [⟨.mappingEnd, ending.position⟩]
      | _ =>
        let key ← node fuel false false
        let next ← peek
        return key ++ .missing next.position :: (← flowPairs fuel false)

/-- The value of a pair of a flow mapping. -/
def flowValue : Nat → EventReader (List Event)
  | 0 => failure
  | fuel + 1 => do
    let token ← peek
    if token.kind = .value then
      skip
      let next ← peek
      if next.kind = .flowEntry || next.kind = .flowMappingEnd then
        pure [.missing token.position]
      else node fuel false false
    else pure [.missing token.position]

/-- The entries of a flow sequence and its end; all but the first need a comma before them. -/
def flowItems : Nat → Bool → EventReader (List Event)
  | 0, _ => failure
  | fuel + 1, first => do
    let ending ← peek
    if ending.kind = .flowSequenceEnd then
      skip
      pure [⟨.sequenceEnd, ending.position⟩]
    else
      if !first then
        if !(← skipIf .flowEntry) then failure
      let token ← peek
      match token.kind with
      | .flowSequenceEnd =>
        skip
        pure [⟨.sequenceEnd, token.position⟩]
      | .key =>
        skip
        let pair ← singlePair fuel
        return ⟨.mappingStart none, token.position⟩ :: pair ++ (← flowItems fuel false)
      | _ =>
        let item ← node fuel false false
        return item ++ (← flowItems fuel false)

/-- The key, the value and the end of a mapping of one pair in a flow sequence. A key that is
missing takes the token after it with it. -/
def singlePair : Nat → EventReader (List Event)
  | 0 => failure
  | fuel + 1 => do
    let token ← peek
    let key ←
      if token.kind = .value || token.kind = .flowEntry || token.kind = .flowSequenceEnd then do
        skip
        pure [Event.missing token.position]
      else node fuel false false
    let token ← peek
    let value ←
      if token.kind = .value then do
        skip
        missingOr [.flowEntry, .flowSequenceEnd] (node fuel false false)
      else pure [Event.missing token.position]
    let next ← peek
    return key ++ value ++ [⟨.mappingEnd, next.position⟩]

end

/-! ## Documents -/

/-- Directives before a document; a version may be given once. Returns the handle declared last. -/
def directives (versioned : Bool) : List Token → EventReader Unit
  | [] => failure
  | token :: rest =>
    match token.kind with
    | .versionDirective => do
      if versioned then failure
      modify fun p => { p with tokens := rest, handles := [] }
      directives true rest
    | .tagDirective handle => do
      modify fun p => { p with tokens := rest, handles := [handle] }
      directives versioned rest
    | _ => pure ()

/-- Passes over document ends. -/
def skipDocumentEnds : List Token → EventReader Unit
  | [] => failure
  | token :: rest =>
    if token.kind = .documentEnd then do
      modify fun p => { p with tokens := rest }
      skipDocumentEnds rest
    else pure ()

/-- What follows a document: no directives, unless the document is ended explicitly. -/
def documentEnd : EventReader Unit := do
  match (← peek).kind with
  | .versionDirective => failure
  | .tagDirective _ => failure
  | _ => pure ()

/-- The content of a document behind its start, which may be missing. -/
def explicitContent (fuel : Nat) : EventReader (List Event) := do
  let token ← peek
  match token.kind with
  | .versionDirective => pure [.missing token.position]
  | .tagDirective _ => pure [.missing token.position]
  | .documentStart => pure [.missing token.position]
  | .documentEnd => pure [.missing token.position]
  | .streamEnd => pure [.missing token.position]
  | _ => node fuel true false

/-- The first document, if there is one. -/
def document (fuel : Nat) : EventReader (Option (List Event)) := do
  skipDocumentEnds (← get).tokens
  let token ← peek
  let explicit : EventReader (Option (List Event)) := do
    directives false (← get).tokens
    if !(← skipIf .documentStart) then failure
    let content ← explicitContent fuel
    documentEnd
    pure (some content)
  match token.kind with
  | .streamEnd => pure none
  | .versionDirective => explicit
  | .tagDirective _ => explicit
  | .documentStart => explicit
  | _ =>
    let content ← node fuel true false
    documentEnd
    pure (some content)

end EventReader

/-- The events of the first document: `none` if the tokens are no well-formed stream, `some none` if
there is no document. A call of the grammar passes a token at least every third time, so the number
of tokens bounds their nesting. -/
def events? (tokens : List Token) : Option (Option (List Event)) :=
  (EventReader.document (4 * tokens.length + 8)).run' { tokens }

end QueryBook.Yaml
