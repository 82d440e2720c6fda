import QueryBook.Proofs.Lexing

/-!
# Lexing keys and values

A line of a block mapping is a key, a `:` and what is the value. A key at the column of an open
block closes the blocks inside it; a key that is deeper opens a block. A key has to be short enough
to be recognised by its `:`.
-/

namespace QueryBook.Yaml

open Canonical
open Text (unlines)

/-! ## Written scalars -/

/-- The style a text is written in. -/
def styleOf (text : String) : Style := if isPlainSafe text then .plain else .doubleQuoted

/-- The token of a text that is written at a position. -/
def scalarToken (text : String) (position : Position) : Token :=
  ⟨.scalar (styleOf text) text, position⟩

namespace Lexer

variable {s : Lexer} {blocks : List Nat} {loose : Bool} {text : String} {rest : List Char}
  {tokens : List Token}

/-- The key that may have begun at a place. -/
def newKey (s : Lexer) : PendingKey where
  required := !s.inFlow && s.indent == s.column && s.indents.head?.any (·.endsBlock)
  number := s.emitted.length
  mark := s.mark

/-- The key under way after a scalar at a place. -/
def keyAt (s : Lexer) : Option PendingKey := if s.keyAllowed then some s.newKey else s.pending

/-- A key is noted where one may begin. -/
theorem saveKey_eq (s : Lexer) : s.saveKey = { s with pending := s.keyAt } := by
  unfold saveKey keyAt
  split <;> rfl

/-- A character that is no indicator begins a plain scalar. -/
theorem readContent_plain {c : Char} (h : c ∉ indicators) (following : Option Char) :
    s.readContent c following = s.readPlain := by
  unfold readContent
  dsimp only
  split
  all_goals first | exact absurd (by decide) h | rfl

/-- A plain scalar is read as far as its reader goes; loose indentation is taken back. -/
theorem readPlain_eq (hs : InBlocks s blocks loose) {cs : List Char} {ended : Bool} {c : Cursor}
    (hread : Plain.read false (blockIndent blocks + 1) s.cursor = some (cs, ended, c)) :
    s.readPlain = some { s with
      cursor := c
      keyAllowed := ended
      pending := s.keyAt
      indent := blockIndent blocks
      indents := blockIndents blocks
      emitted := ⟨.scalar .plain (String.ofList cs), s.mark.position⟩ :: s.emitted } := by
  have hs' : InBlocks { s with pending := s.keyAt, keyAllowed := false } blocks loose :=
    ⟨hs.outer, hs.singlePairs, hs.indent, hs.indents⟩
  have hflow : s.inFlow = false := hs.inFlow
  unfold readPlain
  rw [saveKey_eq]
  dsimp only
  rw [hs'.dropLooseIndents]
  simp only [inFlow] at hflow ⊢
  rw [hflow, hread]
  rfl

/-- A quoted scalar is read as far as its reader goes, and then up to the next token. -/
theorem readQuoted_eq (hs : InBlocks s blocks loose) {cs : List Char} {c : Cursor} {s' : Lexer}
    (hread : Quoted.read false false s.indent s.cursor = some (cs, c))
    (hskip : skipToToken { s with pending := s.keyAt, keyAllowed := false, cursor := c } = some s') :
    s.readQuoted false = some { s' with
      adjacentAt := s'.mark.index
      emitted := ⟨.scalar .doubleQuoted (String.ofList cs), s.mark.position⟩ :: s'.emitted } := by
  have hflow : s.inFlow = false := hs.inFlow
  unfold readQuoted
  rw [saveKey_eq]
  simp only [inFlow] at hflow ⊢
  rw [hflow, hread]
  simp only [bind, Option.bind, hskip]
  rfl

/-- A block scalar is read as far as its reader goes; loose indentation is taken back. -/
theorem readBlock_eq (hs : InBlocks s blocks loose) {cs : List Char} {m : Mark} {c : Cursor}
    (hread : Block.read true (blockIndent blocks) s.cursor = some (cs, m, c)) :
    s.readBlock true = some { s with
      cursor := c
      keyAllowed := true
      pending := s.keyAt
      indent := blockIndent blocks
      indents := blockIndents blocks
      emitted := ⟨.scalar .literal (String.ofList cs), m.position⟩ :: s.emitted } := by
  have hs' : InBlocks { s with pending := s.keyAt, keyAllowed := true } blocks loose :=
    ⟨hs.outer, hs.singlePairs, hs.indent, hs.indents⟩
  unfold readBlock
  rw [saveKey_eq]
  dsimp only
  rw [hs'.dropLooseIndents, hread]
  rfl

/-! ## Keys -/

/-- Behind a key, at its `:`. -/
structure AtColon (s : Lexer) (key : PendingKey) (scalar : Token) (tokens : List Token)
    (blocks : List Nat) (loose : Bool) (length : Nat) (rest : List Char) : Prop extends
    InBlocks s blocks loose where
  rest : s.cursor.rest = ':' :: rest
  mark : s.mark = ⟨key.mark.index + length, key.mark.line, key.mark.column + length⟩
  number : key.number = tokens.length
  emitted : s.emitted = scalar :: tokens
  pending : s.pending = some key
  keyAllowed : s.keyAllowed = false

/-- A written scalar before a `:` is read as a key. -/
theorem readContent_key (hs : InBlocks s blocks loose) (hallowed : s.keyAllowed = true)
    (hstop : endsWord rest.head? = true)
    (hrest : s.cursor.rest = (Canonical.scalar text).toList ++ ':' :: rest)
    (hindent : blockIndent blocks + (if loose then 1 else 0) ≤ s.column)
    (hdocument : s.cursor.atDocumentIndicator = false) :
    ∃ c s' loose', (s.cursor.rest.head? = some c ∧ ∀ following,
        s.readContent c following = some s') ∧ (loose' = true → loose = true) ∧
      AtColon s' s.newKey (scalarToken text s.mark.position) s.emitted blocks loose'
        (Canonical.scalar text).toList.length rest := by
  have hkey : s.keyAt = some s.newKey := by rw [keyAt, if_pos hallowed]
  -- a text that is safe is written plain, every other one between double quotes
  unfold Canonical.scalar at hrest ⊢
  split at hrest
  · next h =>
    rw [if_pos h]
    obtain ⟨hplain, hhead, -⟩ := plainFrom_of_isPlainSafe h
    obtain ⟨c, cs, hc⟩ := List.exists_cons_of_ne_nil hplain.nonempty
    have hread : Plain.read false (blockIndent blocks + 1) s.cursor =
        some (text.toList, false, s.cursor.skip text.toList.length) := by
      refine Plain.read_key hplain hstop hrest ?_ hdocument
      simp only [column] at hindent
      cases loose <;> simp at hindent <;> omega
    have hp := readPlain_eq hs hread
    have hx : c ∉ indicators := hhead c (by rw [hc]; rfl)
    refine ⟨c, _, false, ⟨?_, fun following => (readContent_plain hx following).trans hp⟩, by simp, ?_⟩
    · rw [hrest, hc]
      rfl
    · refine ⟨⟨hs.outer, hs.singlePairs, (Int.add_zero _).symm, rfl⟩, ?_, rfl, rfl, ?_, hkey, rfl⟩
      · show (s.cursor.skip _).rest = _
        rw [Cursor.rest_skip, hrest, List.drop_left]
      · simp [scalarToken, styleOf, h]
  · next h =>
    rw [if_neg h]
    have hread : Quoted.read false false s.indent s.cursor =
        some (text.toList, s.cursor.skip (doubleQuoted text).toList.length) := by
      refine Quoted.read_doubleQuoted ?_ hrest (.inl rfl)
      rw [hs.indent]
      simp only [column] at hindent
      omega
    have hcolon : (s.cursor.skip (doubleQuoted text).toList.length).rest = ':' :: rest := by
      rw [Cursor.rest_skip, hrest, List.drop_left]
    have hq := readQuoted_eq hs hread
      (skipToToken_text hcolon (by decide) (by decide) (by decide))
    refine ⟨'"', _, loose, ⟨?_, fun following => hq⟩, id, ?_⟩
    · rw [hrest, Quoted.toList_doubleQuoted]
      rfl
    · refine ⟨⟨hs.outer, hs.singlePairs, hs.indent, hs.indents⟩, hcolon, rfl, rfl, ?_, hkey, rfl⟩
      simp [scalarToken, styleOf, h]

/-- The token of the block that a key opens if it is deeper than the open blocks. -/
def opening (blocks : List Nat) (column : Nat) (position : Position) : List Token :=
  if blockIndent blocks < column then [⟨.blockMappingStart, position⟩] else []

/-- The blocks that are open behind a key. -/
def blocksWith (blocks : List Nat) (column : Nat) : List Nat :=
  if blockIndent blocks < column then column :: blocks else blocks

/-- Behind a `:`, where a value is awaited. -/
structure AwaitsValue (s : Lexer) (tokens : List Token) (blocks : List Nat) (line column : Nat)
    (rest : List Char) : Prop extends InBlocks s blocks true where
  rest : s.cursor.rest = rest
  line : s.cursor.line = line
  column : s.cursor.column = column
  emitted : s.emitted = tokens
  pending : s.pending = none
  keyAllowed : s.keyAllowed = false

variable {key : PendingKey} {scalar : Token} {length : Nat}

/-- A key that is short enough is still under way at its `:`. -/
theorem AtColon.dropStaleKeys (h : AtColon s key scalar tokens blocks loose length rest)
    (hlength : length ≤ 1024) : s.dropStaleKeys = some s := by
  have hp := h.pending
  have ho := h.outer
  have hmark := h.mark
  have hstale : s.isStale key = false := by
    simp only [isStale, h.inFlow, hmark]
    simp [hlength]
  obtain ⟨cursor, emitted, keyAllowed, pending, outer, indent, indents, adjacentAt, braces,
    singlePairs⟩ := s
  simp only at hp ho
  subst hp ho
  simp [Lexer.dropStaleKeys, pendingKeys, hstale]

/-- Inside a block and behind its keys, loose indentation is taken back before a block is opened. -/
theorem InBlocks.popLooseIndent (h : InBlocks s blocks loose) :
    s.popLooseIndent = { s with indent := blockIndent blocks, indents := blockIndents blocks } := by
  have hi := h.indent
  have hs := h.indents
  unfold Lexer.popLooseIndent
  cases loose with
  | true =>
    rw [if_pos rfl, List.singleton_append] at hs
    rw [hs]
    rfl
  | false =>
    rw [if_neg (by decide), List.nil_append] at hs
    rw [if_neg (by decide), Int.add_zero] at hi
    rw [← hi]
    split
    · next i outer hm =>
      have hends : i.endsBlock = true := by
        rw [hm] at hs
        cases blocks with
        | nil => cases hs
        | cons b outer =>
          cases hs
          rfl
      rw [if_pos hends, ← hs]
    · rw [← hs]

/-- A block is opened at a column that is deeper than the open blocks, before a token of which the
number is given. -/
theorem InBlocks.openBlock (h : InBlocks s blocks loose) (number : Nat) (position : Position)
    {column : Nat} (hcolumn : blockIndent blocks ≤ column)
    (hloose : loose = true → blockIndent blocks < column) :
    s.openBlock column (some number) .blockMappingStart position =
      { s with
        indent := blockIndent (blocksWith blocks column)
        indents := blockIndents (blocksWith blocks column)
        emitted := s.emitted.take (s.emitted.length - number) ++
          (opening blocks column position ++ s.emitted.drop (s.emitted.length - number)) } := by
  have hle : s.indent ≤ column := by
    rw [h.indent]
    cases loose with
    | true =>
      have := hloose rfl
      rw [if_pos rfl]
      omega
    | false =>
      rw [if_neg (by decide)]
      omega
  rw [Lexer.openBlock, h.inFlow, if_neg (by decide), if_pos hle, h.popLooseIndent]
  dsimp only
  unfold opening blocksWith
  split
  · rfl
  · simp

/-- There is a block at the column of a key. -/
theorem blocksWith_ne_nil {column : Nat} (h : blockIndent blocks ≤ column) :
    blocksWith blocks column ≠ [] := by
  unfold blocksWith
  split
  · exact List.cons_ne_nil _ _
  · rintro rfl
    simp only [blockIndent] at *
    omega

/-- Text behind a `:` is to be indented more than the innermost block. -/
theorem InBlocks.indentText (h : InBlocks s blocks false) (hne : blocks ≠ []) :
    s.indentText = { s with
      indent := blockIndent blocks + 1
      indents := ⟨blockIndent blocks, false⟩ :: blockIndents blocks } := by
  have hi := h.indent
  have hs := h.indents
  rw [if_neg (by decide), Int.add_zero] at hi
  rw [if_neg (by decide), List.nil_append] at hs
  obtain ⟨b, outer, rfl⟩ := List.exists_cons_of_ne_nil hne
  rw [Lexer.indentText, h.inFlow, hs, hi]
  rfl

/-- A `:` makes the scalar before it a key and is a value token. -/
theorem readValue_eq (h : AtColon s key scalar tokens blocks loose length rest)
    (hcolumn : blockIndent blocks ≤ key.mark.column)
    (hloose : loose = true → blockIndent blocks < key.mark.column) (htab : rest.head? ≠ some '\t') :
    ∃ s', s.readValue = some s' ∧
      AwaitsValue s'
        (⟨.value, s.mark.position⟩ :: scalar :: ⟨.key, key.mark.position⟩ ::
          (opening blocks key.mark.column s.mark.position ++ tokens))
        (blocksWith blocks key.mark.column) s.cursor.line (s.cursor.column + 1) rest := by
  have hblocks : InBlocks
      { s with cursor := s.cursor.skip 1, emitted := scalar :: ⟨.key, key.mark.position⟩ :: tokens }
      blocks loose := ⟨h.outer, h.singlePairs, h.indent, h.indents⟩
  have hopen := hblocks.openBlock key.number s.mark.position hcolumn hloose
  have hopened : InBlocks { s with
      cursor := s.cursor.skip 1
      emitted := scalar :: ⟨.key, key.mark.position⟩ ::
        (opening blocks key.mark.column s.mark.position ++ tokens)
      indent := blockIndent (blocksWith blocks key.mark.column)
      indents := blockIndents (blocksWith blocks key.mark.column) }
      (blocksWith blocks key.mark.column) false :=
    ⟨h.outer, h.singlePairs, (Int.add_zero _).symm, rfl⟩
  have hindent := hopened.indentText (blocksWith_ne_nil hcolumn)
  have hrest : (s.cursor.skip 1).rest = rest := by
    rw [Cursor.rest_skip, h.rest]
    rfl
  obtain ⟨⟨houter, hpairs, -, -⟩, -, -, hnumber, hemitted, hpending, hallowed⟩ := h
  obtain ⟨cursor, emitted, keyAllowed, pending, outer, indent, indents, adjacentAt, braces,
    singlePairs⟩ := s
  dsimp only at *
  subst houter hpairs hemitted hpending hallowed
  rw [hnumber] at hopen
  -- the token of the key goes in front of the scalar, at the number that was saved with the key
  have hnewer : (scalar :: ⟨.key, key.mark.position⟩ :: tokens).length - tokens.length = 2 := by
    rw [List.length_cons, List.length_cons]
    omega
  rw [hnewer] at hopen
  have hnext : (cursor.skip 1).next? ≠ some '\t' := by
    rw [Cursor.next?, hrest]
    exact htab
  unfold readValue startsSinglePair skipTabAfterColon
  simp only [List.isEmpty_nil, Bool.not_true, Bool.false_and, Bool.false_eq_true, if_false,
    if_neg hnext, bind, Option.bind, insert, hnumber]
  have hnewer' : (scalar :: tokens).length - tokens.length = 1 := by
    rw [List.length_cons]
    omega
  simp only [hnewer', List.take_succ_cons, List.take_zero, List.drop_succ_cons, List.drop_zero,
    List.cons_append, List.nil_append] at hopen ⊢
  rw [hopen]
  dsimp only [mark] at hindent ⊢
  rw [hindent]
  exact ⟨_, rfl, ⟨rfl, rfl, rfl, rfl⟩, hrest, rfl, rfl, rfl, rfl, rfl⟩

end Lexer

end QueryBook.Yaml
