import QueryBook.Proofs.ScalarReadings

/-!
# What the lexer keeps

Reading a token that is no scalar only passes its characters, and puts tokens where no marker
stands. So a property of places that is kept where something is passed holds wherever the lexer
gets, if scalars keep it; and a property of tokens that follows from it holds of all tokens. The
property of places may depend on the scalars that have been read.
-/

namespace QueryBook.Yaml

/-- Whether a kind of token has neither a name that it defines nor a text. -/
def TokenKind.IsBare : TokenKind → Prop
  | .anchor _ => False
  | .scalar _ _ => False
  | _ => True

/-- What is bare is no scalar. -/
theorem TokenKind.IsBare.isScalar {kind : TokenKind} (h : kind.IsBare) (position : Position) :
    (Token.mk kind position).isScalar = false := by
  cases kind with
  | scalar style text => cases h
  | _ => rfl

namespace Lexer

open Cursor

/-- A property of places that is kept where something is passed, and one of tokens that follows. -/
structure IsInvariant (place : List ScalarReading → Cursor → Prop) (token : Token → Prop) :
    Prop where
  passes {rs : List ScalarReading} {c c' : Cursor} : place rs c → c.Passes c' → place rs c'
  /-- Scalars keep it, too, and their tokens have their property. -/
  scalar {rs : List ScalarReading} {r : ScalarReading} {c : Cursor} : place rs r.lexer.cursor →
    r.lexer.cursor.next? ≠ some '#' → r.EndsAt c → place (rs ++ [r]) c ∧ token r.token
  bare {rs : List ScalarReading} {c : Cursor} {kind : TokenKind} : place rs c →
    c.next? ≠ some '#' → kind.IsBare → token ⟨kind, c.mark.position⟩
  anchor {rs : List ScalarReading} {c : Cursor} {name : List Char} : place rs c →
    c.next? = some '&' → name = (c.skip 1).rest.takeWhile isAnchorChar → name ≠ [] →
    token ⟨.anchor (String.ofList name), c.mark.position⟩
  /-- Ends may stand at the beginning of a line. -/
  margin {kind : TokenKind} (line : Nat) : kind.IsBare → token ⟨kind, ⟨line, 1⟩⟩
  /-- A mapping without braces may begin anywhere behind a colon. -/
  pair (position : Position) : token ⟨.flowMappingStart, position⟩

/-- What holds of the lexer between two tokens. -/
structure Keeps (place : List ScalarReading → Cursor → Prop) (token : Token → Prop)
    (rs : List ScalarReading) (s : Lexer) : Prop where
  place : place rs s.cursor
  tokens : ∀ t ∈ s.emitted, token t
  keys : ∀ key, some key ∈ s.pending :: s.outer → token ⟨.key, key.mark.position⟩
  scalars : s.emitted.filter (·.isScalar) = (rs.map (·.token)).reverse

variable {place : List ScalarReading → Cursor → Prop} {token : Token → Prop}
  {rs : List ScalarReading} {s s' a : Lexer} {kind : TokenKind} {position : Position}

/-- At the start of a source there are no tokens. -/
theorem keeps_ofSource {source : List Char} (h : place [] (Cursor.ofSource source)) :
    (ofSource source).Keeps place token [] where
  place := h
  tokens := fun _ ht => absurd ht List.not_mem_nil
  keys := fun _ hkey => absurd (List.mem_singleton.mp hkey) nofun
  scalars := rfl

/-! ## Changes of the state -/

@[simp] theorem cursor_emit : (s.emit kind position).cursor = s.cursor := rfl

@[simp] theorem cursor_insert (number : Nat) :
    (s.insert number kind position).cursor = s.cursor := rfl

@[simp] theorem cursor_saveKey : s.saveKey.cursor = s.cursor := by
  unfold saveKey
  split <;> rfl

@[simp] theorem cursor_popLooseIndent : s.popLooseIndent.cursor = s.cursor := by
  unfold popLooseIndent
  split
  · split <;> rfl
  · rfl

@[simp] theorem cursor_openBlock (column : Nat) (number : Option Nat) :
    (s.openBlock column number kind position).cursor = s.cursor := by
  unfold openBlock
  cases number <;> dsimp only <;> split_ifs <;> simp

@[simp] theorem cursor_closeBlocksFrom (column : Int) (indents : List Indentation) :
    (closeBlocksFrom column s indents).cursor = s.cursor := by
  induction indents generalizing s with
  | nil => rfl
  | cons outer rest ih =>
    unfold closeBlocksFrom
    split
    · rw [ih]
      split <;> rfl
    · rfl

@[simp] theorem cursor_closeBlocks (column : Int) : (s.closeBlocks column).cursor = s.cursor := by
  unfold closeBlocks
  split
  · rfl
  · exact cursor_closeBlocksFrom column s.indents

@[simp] theorem cursor_indentText : s.indentText.cursor = s.cursor := by
  unfold indentText
  split <;> rfl

@[simp] theorem cursor_openSinglePair : s.openSinglePair.cursor = s.cursor := by
  unfold openSinglePair
  split <;> rfl

@[simp] theorem cursor_closeSinglePair : s.closeSinglePair.cursor = s.cursor := by
  unfold closeSinglePair
  split <;> rfl

@[simp] theorem cursor_leaveFlow : s.leaveFlow.cursor = s.cursor := by
  unfold leaveFlow
  split <;> rfl

theorem cursor_removeKey (h : s.removeKey = some s') : s'.cursor = s.cursor := by
  unfold removeKey at h
  split at h
  · cases h
  · cases h
    rfl

theorem cursor_dropStaleKeys (h : s.dropStaleKeys = some s') : s'.cursor = s.cursor := by
  unfold dropStaleKeys at h
  split at h
  · cases h
  · cases h
    rfl

namespace Keeps

/-- A token that is no scalar is added. -/
theorem emit (h : s.Keeps place token rs) (hkind : (Token.mk kind position).isScalar = false)
    (ht : token ⟨kind, position⟩) : (s.emit kind position).Keeps place token rs where
  place := h.place
  tokens := List.forall_mem_cons.mpr ⟨ht, h.tokens⟩
  keys := h.keys
  scalars := by
    rw [Lexer.emit, List.filter_cons_of_neg (by simp [hkind]), h.scalars]

/-- A token that is no scalar is put before another. -/
theorem insert (h : s.Keeps place token rs) (hkind : (Token.mk kind position).isScalar = false)
    (ht : token ⟨kind, position⟩) (number : Nat) :
    (s.insert number kind position).Keeps place token rs where
  place := h.place
  tokens := by
    intro t hmem
    rcases List.mem_append.mp hmem with hmem | hmem
    · exact h.tokens t (List.mem_of_mem_take hmem)
    · rcases List.mem_cons.mp hmem with rfl | hmem
      · exact ht
      · exact h.tokens t (List.mem_of_mem_drop hmem)
  keys := h.keys
  scalars := by
    rw [Lexer.insert, List.filter_append, List.filter_cons_of_neg (by simp [hkind]),
      ← List.filter_append, List.take_append_drop, h.scalars]

/-- Reading ends with a token that is no scalar. -/
theorem emits (h : s.Keeps place token rs) (a : Lexer)
    (hkind : (Token.mk kind position).isScalar = false) (ht : token ⟨kind, position⟩) :
    (s.emit kind position).Keeps place token (rs ++ a.scalarTo (s.emit kind position)) := by
  have hnone : a.scalarTo (s.emit kind position) = [] := by
    cases kind with
    | scalar style text => cases hkind
    | _ => rfl
  rw [hnone, List.append_nil]
  exact h.emit hkind ht

/-- The lexer moves forward. -/
theorem move (h : s.Keeps place token rs) {cursor : Cursor} (hc : place rs cursor) :
    { s with cursor }.Keeps place token rs :=
  { h with place := hc }

/-! ## Keys and indentation -/

theorem dropStaleKeys (hs : s.Keeps place token rs) (h : s.dropStaleKeys = some s') :
    s'.Keeps place token rs := by
  unfold Lexer.dropStaleKeys at h
  split at h
  · cases h
  · cases h
    refine { hs with keys := fun key hkey => hs.keys key ?_ }
    rcases List.mem_cons.mp hkey with hkey | hkey
    · exact List.mem_cons.mpr (.inl (Option.filter_eq_some_iff.mp hkey.symm).1.symm)
    · obtain ⟨key?, hmem, hfresh⟩ := List.mem_map.mp hkey
      obtain rfl := (Option.filter_eq_some_iff.mp hfresh).1
      exact List.mem_cons_of_mem _ hmem

theorem removeKey (hs : s.Keeps place token rs) (h : s.removeKey = some s') :
    s'.Keeps place token rs := by
  unfold Lexer.removeKey at h
  split at h
  · cases h
  · cases h
    refine { hs with keys := fun key hkey => hs.keys key ?_ }
    exact List.mem_cons_of_mem _ ((List.mem_cons.mp hkey).resolve_left nofun)

theorem popLooseIndent (h : s.Keeps place token rs) : s.popLooseIndent.Keeps place token rs := by
  unfold Lexer.popLooseIndent
  split
  · split
    · exact h
    · exact { h with }
  · exact h

theorem indentText (h : s.Keeps place token rs) : s.indentText.Keeps place token rs := by
  unfold Lexer.indentText
  split
  · exact { h with }
  · exact h

/-- Opening a block adds at most its token. -/
theorem openBlock (h : s.Keeps place token rs) (hkind : (Token.mk kind position).isScalar = false)
    (ht : token ⟨kind, position⟩) (column : Nat) (number : Option Nat) :
    (s.openBlock column number kind position).Keeps place token rs := by
  have hpop : (if s.indent ≤ column then s.popLooseIndent else s).Keeps place token rs := by
    split
    · exact h.popLooseIndent
    · exact h
  unfold Lexer.openBlock
  split
  · exact h
  · dsimp only
    generalize (if s.indent ≤ column then s.popLooseIndent else s) = t at hpop
    split
    · have hdeeper : { t with
          indents := ⟨t.indent, true⟩ :: t.indents, indent := column }.Keeps place token rs :=
        { hpop with }
      cases number with
      | some n => exact hdeeper.insert hkind ht n
      | none => exact hdeeper.emit hkind ht
    · exact hpop

theorem openSinglePair (h : s.Keeps place token rs) : s.openSinglePair.Keeps place token rs := by
  unfold Lexer.openSinglePair
  split
  · exact { h with }
  · exact h

theorem leaveFlow (h : s.Keeps place token rs) : s.leaveFlow.Keeps place token rs := by
  unfold Lexer.leaveFlow
  split
  · next key rest houter =>
    refine { h with keys := fun key' hkey => h.keys key' ?_ }
    rw [houter]
    exact List.mem_cons_of_mem _ hkey
  · exact h

end Keeps

/-! ## Where a token begins -/

section

variable (hi : IsInvariant place token)
include hi

namespace Keeps

/-- Noting a key notes where it may begin. -/
theorem saveKey (h : s.Keeps place token rs) (hnext : s.cursor.next? ≠ some '#') :
    s.saveKey.Keeps place token rs := by
  unfold Lexer.saveKey
  split
  · refine { h with keys := fun key hkey => ?_ }
    rcases List.mem_cons.mp hkey with hkey | hkey
    · cases hkey
      exact hi.bare h.place hnext (by trivial)
    · exact h.keys key (List.mem_cons_of_mem _ hkey)
  · exact h

/-- Closing blocks adds their ends. -/
theorem closeBlocksFrom (h : s.Keeps place token rs) (hnext : s.cursor.next? ≠ some '#')
    (column : Int) (indents : List Indentation) :
    (Lexer.closeBlocksFrom column s indents).Keeps place token rs := by
  induction indents generalizing s with
  | nil => exact h
  | cons outer rest ih =>
    unfold Lexer.closeBlocksFrom
    have hshallow : { s with indent := outer.column, indents := rest }.Keeps place token rs :=
      { h with }
    split
    · split
      · exact ih (hshallow.emit rfl (hi.bare h.place hnext (by trivial))) hnext
      · exact ih hshallow hnext
    · exact h

theorem closeBlocks (h : s.Keeps place token rs) (hnext : s.cursor.next? ≠ some '#')
    (column : Int) : (s.closeBlocks column).Keeps place token rs := by
  unfold Lexer.closeBlocks
  split
  · exact h
  · exact h.closeBlocksFrom hi hnext column s.indents

theorem closeSinglePair (h : s.Keeps place token rs) (hnext : s.cursor.next? ≠ some '#') :
    s.closeSinglePair.Keeps place token rs := by
  unfold Lexer.closeSinglePair
  split
  · next rest hpairs =>
    have hclosed : { s with singlePairs := false :: rest, braces := false }.Keeps place token rs :=
      { h with }
    exact hclosed.emit rfl (hi.bare h.place hnext (by trivial))
  · exact h

/-! ## Between tokens -/

theorem skipToToken (hs : s.Keeps place token rs) (h : s.skipToToken = some s') :
    s'.Keeps place token rs := by
  obtain ⟨ht, hpassed, -⟩ := skipToToken_eq_some h
  rw [ht]
  exact { hs with place := hi.passes hs.place hpassed }

theorem skipOnLine (hs : s.Keeps place token rs) (h : s.skipOnLine = some s') :
    s'.Keeps place token rs := by
  obtain ⟨⟨seen, cursor⟩, hblanks, rfl⟩ := Option.map_eq_some_iff.mp h
  exact hs.move (hi.passes hs.place (passes_skipBlanks hblanks))

/-- So does moving on behind the indicator of a key. -/
theorem skipAfterKeyIndicator {passed : Bool} (hs : s.Keeps place token rs)
    (h : s.skipAfterKeyIndicator passed = some s') : s'.Keeps place token rs := by
  fun_induction Lexer.skipAfterKeyIndicator s passed
  case case3 hrest ih =>
    exact ih (hs.move (hi.passes hs.place (passes_skipWhite hrest rfl))) h
  case case4 hrest _ hbreak ih =>
    exact ih { hs with place := hi.passes hs.place (passes_skipBreak hrest hbreak) } h
  case case5 ih => exact ih (hs.move (hi.passes hs.place (passes_skipLine _))) h
  case case1 | case7 =>
    cases h
    exact hs
  all_goals cases h

theorem skipTabAfterColon (hs : s.Keeps place token rs) (h : s.skipTabAfterColon = some s') :
    s'.Keeps place token rs := by
  unfold Lexer.skipTabAfterColon at h
  split at h
  · split at h
    · cases h
    · next hblanks =>
      split at h
      · cases h
      · cases h
        exact hs.move (hi.passes hs.place (passes_skipBlanks hblanks))
  · cases h
    exact hs

/-- An indicator is passed. -/
theorem skip_one {ch : Char} (h : s.Keeps place token rs) (hstart : s.cursor.next? = some ch)
    (hsolid : Tag.isSolid ch = true) (hmarker : ch ≠ '#') : place rs (s.cursor.skip 1) := by
  obtain ⟨rest, hrest⟩ := List.head?_eq_some_iff.mp hstart
  obtain ⟨hwhite, hbreak⟩ := Tag.isSolid_eq_true.mp hsolid
  exact hi.passes h.place (passes_skip_one hrest hwhite hbreak hmarker)

/-! ## Documents -/

theorem leaveDocument (hs : s.Keeps place token rs) (hnext : s.cursor.next? ≠ some '#')
    (h : s.leaveDocument = some s') : s'.Keeps place token rs ∧ s'.cursor = s.cursor := by
  unfold Lexer.leaveDocument at h
  obtain ⟨t, ht, h⟩ := Option.bind_eq_some_iff.mp h
  have hremoved := (hs.closeBlocks hi hnext (-1)).removeKey ht
  cases h
  exact ⟨{ hremoved with }, (cursor_removeKey ht).trans (cursor_closeBlocks _)⟩

theorem readDirective (hs : s.Keeps place token rs) (hstart : s.cursor.next? = some '%')
    (h : s.readDirective = some s') : s'.Keeps place token (rs ++ s.scalarTo s') := by
  have hnext : s.cursor.next? ≠ some '#' := by rw [hstart]; decide
  unfold Lexer.readDirective at h
  obtain ⟨t, ht, h⟩ := Option.bind_eq_some_iff.mp h
  obtain ⟨⟨kind, cursor⟩, hread, h⟩ := Option.bind_eq_some_iff.mp h
  cases h
  obtain ⟨hleft, hcursor⟩ := hs.leaveDocument hi hnext ht
  obtain ⟨hpassed, hkind⟩ := Tag.passes_readDirective (hcursor ▸ hstart) hread
  have hmoved := hleft.move (hi.passes hleft.place hpassed)
  rcases hkind with rfl | ⟨handle, rfl⟩
  · exact hmoved.emits s rfl (hi.bare hleft.place (hcursor ▸ hnext) (by trivial))
  · exact hmoved.emits s rfl (hi.bare hleft.place (hcursor ▸ hnext) (by trivial))

/-- Three characters at the start of a line are passed. -/
theorem skip_three {ch : Char} (hs : s.Keeps place token rs)
    (hstart : s.cursor.startsTriple ch = true) (hsolid : Tag.isSolid ch = true)
    (hmarker : ch ≠ '#') : place rs (s.cursor.skip 3) ∧ s.cursor.next? ≠ some '#' := by
  rw [startsTriple, Bool.and_eq_true, beq_iff_eq] at hstart
  have hrest : s.cursor.rest = ch :: ch :: ch :: s.cursor.rest.drop 3 := by
    conv_lhs => rw [← List.take_append_drop 3 s.cursor.rest, hstart.1]
    rfl
  obtain ⟨hwhite, hbreak⟩ := Tag.isSolid_eq_true.mp hsolid
  have htaken : s.cursor.Takes [ch, ch, ch] (s.cursor.skip 3) :=
    ⟨hrest, rfl, by simpa using hbreak⟩
  refine ⟨hi.passes hs.place (htaken.passes (by simpa using hwhite) (by simpa using hmarker)), ?_⟩
  rw [next?, hrest]
  simpa using hmarker

theorem readDocumentStart (hs : s.Keeps place token rs)
    (hstart : s.cursor.startsTriple '-' = true) (h : s.readDocumentStart = some s') :
    s'.Keeps place token (rs ++ s.scalarTo s') := by
  obtain ⟨hplace, hnext⟩ := hs.skip_three hi hstart (by decide) (by decide)
  unfold Lexer.readDocumentStart at h
  obtain ⟨t, ht, h⟩ := Option.bind_eq_some_iff.mp h
  cases h
  obtain ⟨hleft, hcursor⟩ := hs.leaveDocument hi hnext ht
  have hmoved : { t with cursor := t.cursor.skip 3 }.Keeps place token rs :=
    hleft.move (by rw [hcursor]; exact hplace)
  exact hmoved.emits s rfl (hi.bare hleft.place (hcursor ▸ hnext) (by trivial))

theorem readDocumentEnd (hs : s.Keeps place token rs) (hstart : s.cursor.startsTriple '.' = true)
    (h : s.readDocumentEnd = some s') : s'.Keeps place token (rs ++ s.scalarTo s') := by
  obtain ⟨hplace, hnext⟩ := hs.skip_three hi hstart (by decide) (by decide)
  unfold Lexer.readDocumentEnd at h
  obtain ⟨t, ht, h⟩ := Option.bind_eq_some_iff.mp h
  obtain ⟨cursor, hend, h⟩ := Option.bind_eq_some_iff.mp h
  cases h
  obtain ⟨hleft, hcursor⟩ := hs.leaveDocument hi hnext ht
  obtain ⟨seen, hblanks, -⟩ := skipToLineEnd_eq_some hend
  rw [hcursor] at hblanks
  exact (hleft.move (hi.passes hplace (passes_skipBlanks hblanks))).emits s rfl
    (hi.bare hleft.place (hcursor ▸ hnext) (by trivial))

/-! ## Flow collections -/

theorem readFlowStart (hs : s.Keeps place token rs) (hkind : kind.IsBare) {ch : Char}
    (hstart : s.cursor.next? = some ch) (hsolid : Tag.isSolid ch = true) (hmarker : ch ≠ '#')
    (h : s.readFlowStart kind = some s') : s'.Keeps place token (rs ++ s.scalarTo s') := by
  have hnext : s.cursor.next? ≠ some '#' := by rw [hstart]; simpa using hmarker
  unfold Lexer.readFlowStart at h
  dsimp only at h
  split at h
  · cases h
  · obtain ⟨t, ht, h⟩ := Option.bind_eq_some_iff.mp h
    cases h
    have hsaved := (hs.saveKey hi hnext).indentText
    have hplace : place rs (s.saveKey.indentText.cursor.skip 1) := by
      rw [cursor_indentText, cursor_saveKey]
      exact hs.skip_one hi hstart hsolid hmarker
    -- the level that is entered has no key of its own
    have hentered : { s.saveKey.indentText.enterFlow with
        keyAllowed := true
        cursor := s.saveKey.indentText.cursor.skip 1 }.Keeps place token rs := by
      refine { hsaved with place := hplace, keys := fun key hkey => hsaved.keys key ?_ }
      exact (List.mem_cons.mp hkey).resolve_left nofun
    have hbare := hi.bare hs.place hnext hkind
    refine Keeps.emits (Keeps.skipOnLine hi ?_ ht) s (hkind.isScalar _) hbare
    split
    · exact { hentered with }
    · exact { hentered with }

theorem readFlowEnd (hs : s.Keeps place token rs) (hkind : kind.IsBare) {ch : Char}
    (hstart : s.cursor.next? = some ch) (hsolid : Tag.isSolid ch = true) (hmarker : ch ≠ '#')
    (h : s.readFlowEnd kind = some s') : s'.Keeps place token (rs ++ s.scalarTo s') := by
  have hnext : s.cursor.next? ≠ some '#' := by rw [hstart]; simpa using hmarker
  unfold Lexer.readFlowEnd at h
  obtain ⟨t, ht, h⟩ := Option.bind_eq_some_iff.mp h
  obtain ⟨u, hu, h⟩ := Option.bind_eq_some_iff.mp h
  -- only the bracket is passed: leaving the collection and its pair moves nothing
  have hcursor : t.leaveFlow.cursor = s.cursor := cursor_leaveFlow.trans (cursor_removeKey ht)
  have hleft : { t.leaveFlow with keyAllowed := false }.Keeps place token rs :=
    { (hs.removeKey ht).leaveFlow with }
  have hclosed := hleft.closeSinglePair hi (hcursor.symm ▸ hnext)
  have hplace := hs.skip_one hi hstart hsolid hmarker
  have hskipped : u.Keeps place token rs := by
    refine Keeps.skipOnLine hi (Keeps.move ?_ ?_) hu
    · split
      · exact { hclosed with }
      · exact hleft
    · split
      · have hcursor' :=
          (cursor_closeSinglePair (s := { t.leaveFlow with keyAllowed := false })).trans hcursor
        exact hcursor'.symm ▸ hplace
      · exact hcursor.symm ▸ hplace
  cases h
  refine Keeps.emits ?_ s (hkind.isScalar _) (hi.bare hs.place hnext hkind)
  split
  · exact { hskipped with }
  · exact hskipped

theorem readFlowEntry (hs : s.Keeps place token rs) (hstart : s.cursor.next? = some ',')
    (h : s.readFlowEntry = some s') : s'.Keeps place token (rs ++ s.scalarTo s') := by
  have hnext : s.cursor.next? ≠ some '#' := by rw [hstart]; decide
  unfold Lexer.readFlowEntry at h
  obtain ⟨t, ht, h⟩ := Option.bind_eq_some_iff.mp h
  obtain ⟨u, hu, h⟩ := Option.bind_eq_some_iff.mp h
  cases h
  have hcursor : t.cursor = s.cursor := cursor_removeKey ht
  have hallowed : { t with keyAllowed := true }.Keeps place token rs := { hs.removeKey ht with }
  have hclosed := hallowed.closeSinglePair hi (hcursor.symm ▸ hnext)
  have hplace := hs.skip_one hi hstart (by decide) (by decide)
  have hcursor' : { t with keyAllowed := true }.closeSinglePair.cursor = s.cursor :=
    cursor_closeSinglePair.trans hcursor
  exact (Keeps.skipOnLine hi (hclosed.move (hcursor'.symm ▸ hplace)) hu).emits s rfl
    (hi.bare hs.place hnext (by trivial))

/-! ## Block collections -/

theorem readBlockEntry (hs : s.Keeps place token rs) (hstart : s.cursor.next? = some '-')
    (h : s.readBlockEntry = some s') : s'.Keeps place token (rs ++ s.scalarTo s') := by
  have hnext : s.cursor.next? ≠ some '#' := by rw [hstart]; decide
  unfold Lexer.readBlockEntry at h
  split at h
  · cases h
  · split at h
    · cases h
    · obtain ⟨⟨blanks, c₁⟩, hblanks, h⟩ := Option.bind_eq_some_iff.mp h
      dsimp only at h
      split at h
      · cases h
      · obtain ⟨⟨blanks', c₂⟩, hblanks', h⟩ := Option.bind_eq_some_iff.mp h
        obtain ⟨t, ht, h⟩ := Option.bind_eq_some_iff.mp h
        have hplace := hs.skip_one hi hstart (by decide) (by decide)
        have hblock : token ⟨.blockSequenceStart, s.mark.position⟩ :=
          hi.bare hs.place hnext (by trivial)
        have hopen := (hs.move hplace).openBlock (by rfl) hblock s.mark.column none
        rw [cursor_openBlock] at hblanks
        have hmoved := hopen.move (hi.passes hplace
          ((passes_skipBlanks hblanks).trans (passes_skipBlanks hblanks')))
        -- the indentation of the text behind the indicator may be loose; either way nothing moves
        have hremoved : t.Keeps place token rs ∧ t.cursor = c₂ := by
          refine ⟨Keeps.removeKey ?_ ht, (cursor_removeKey ht).trans ?_⟩
          · split
            · exact hmoved.indentText
            · exact hmoved
          · split
            · exact cursor_indentText
            · rfl
        cases h
        obtain ⟨hremoved, rfl⟩ := hremoved
        have hallowed : { t with keyAllowed := true }.Keeps place token rs := { hremoved with }
        exact hallowed.emits s rfl
          (hi.bare hremoved.place (next?_skipBlanks hblanks') (by trivial))

theorem readKey (hs : s.Keeps place token rs) (hstart : s.cursor.next? = some '?')
    (h : s.readKey = some s') : s'.Keeps place token (rs ++ s.scalarTo s') := by
  have hnext : s.cursor.next? ≠ some '#' := by rw [hstart]; decide
  unfold Lexer.readKey at h
  dsimp only at h
  split at h
  · cases h
  · obtain ⟨t, ht, h⟩ := Option.bind_eq_some_iff.mp h
    obtain ⟨u, hu, h⟩ := Option.bind_eq_some_iff.mp h
    have hopen : t.Keeps place token rs ∧ t.cursor = s.cursor := by
      refine ⟨Keeps.removeKey ?_ ht, (cursor_removeKey ht).trans ?_⟩
      · split
        · exact { hs with }
        · exact hs.openBlock rfl (hi.bare hs.place hnext (by trivial)) _ _
      · split
        · rfl
        · exact cursor_openBlock _ _
    have hplace := hs.skip_one hi hstart (by decide) (by decide)
    have hforward : { t with keyAllowed := !t.inFlow, cursor := t.cursor.skip 1 }.Keeps
        place token rs :=
      { hopen.1 with place := hopen.2.symm ▸ hplace }
    have hmoved := hforward.skipAfterKeyIndicator hi hu
    split at h
    · cases h
    · cases h
      exact hmoved.emits s rfl (hi.bare hs.place hnext (by trivial))

theorem readValue (hs : s.Keeps place token rs) (hstart : s.cursor.next? = some ':')
    (h : s.readValue = some s') : s'.Keeps place token (rs ++ s.scalarTo s') := by
  have hnext : s.cursor.next? ≠ some '#' := by rw [hstart]; decide
  have hblock : token ⟨.blockMappingStart, s.mark.position⟩ := hi.bare hs.place hnext (by trivial)
  have hvalue : token ⟨.value, s.mark.position⟩ := hi.bare hs.place hnext (by trivial)
  unfold Lexer.readValue at h
  obtain ⟨t, ht, h⟩ := Option.bind_eq_some_iff.mp h
  have hcolon : t.Keeps place token rs := by
    refine Keeps.skipTabAfterColon hi (Keeps.move ?_ ?_) ht
    · split
      · exact hs.openSinglePair
      · exact hs
    · have hplace := hs.skip_one hi hstart (by decide) (by decide)
      split
      · rw [cursor_openSinglePair]
        exact hplace
      · exact hplace
  dsimp only at h
  split at h
  -- a scalar that waits to be a key gets its token at its own place
  · next key hpending =>
    have hkey : (t.insert key.number .key key.mark.position).Keeps place token rs :=
      hcolon.insert rfl (hcolon.keys key (List.mem_cons.mpr (.inl hpending.symm))) _
    split at h
    · cases h
    · cases h
      have hpair : (if s.startsSinglePair then
            (t.insert key.number .key key.mark.position).insert key.number .flowMappingStart
              t.mark.position
          else t.insert key.number .key key.mark.position).Keeps place token rs := by
        split
        · exact hkey.insert rfl (hi.pair _) _
        · exact hkey
      have hopen := (hpair.openBlock (by rfl) hblock key.mark.column (some key.number)).indentText
      refine Keeps.emits ?_ s rfl hvalue
      refine { hopen with keys := fun key' hkey' => hopen.keys key' ?_ }
      exact List.mem_cons_of_mem _ ((List.mem_cons.mp hkey').resolve_left nofun)
  · have hpair : (if s.startsSinglePair then t.emit .flowMappingStart t.mark.position
        else t).Keeps place token rs := by
      split
      · exact hcolon.emit rfl (hi.pair _)
      · exact hcolon
    generalize (if s.startsSinglePair then t.emit .flowMappingStart t.mark.position else t) = u
      at h hpair
    split at h
    · cases h
    · cases h
      have hopen := (hpair.openBlock (by rfl) hblock s.mark.column none).indentText
      refine Keeps.emits ?_ s rfl hvalue
      exact { hopen with }

/-! ## Properties and scalars -/

/-- The name of an anchor or alias is passed. -/
theorem readName {kind : String → TokenKind} {ch : Char} (hs : s.Keeps place token rs)
    (hstart : s.cursor.next? = some ch) (hindicator : Tag.isSolid ch = true) (hmarker : ch ≠ '#')
    (hkind : ∀ name position, (Token.mk (kind name) position).isScalar = false)
    (htoken : ∀ name, name = (s.cursor.skip 1).rest.takeWhile isAnchorChar → name ≠ [] →
      token ⟨kind (String.ofList name), s.mark.position⟩)
    (h : s.readName kind = some s') : s'.Keeps place token (rs ++ s.scalarTo s') := by
  have hnext : s.cursor.next? ≠ some '#' := by rw [hstart]; simpa using hmarker
  unfold Lexer.readName at h
  dsimp only at h
  rw [cursor_saveKey] at h
  split at h
  · cases h
  · next hname =>
    cases h
    obtain ⟨rest, hrest⟩ := List.head?_eq_some_iff.mp hstart
    obtain ⟨hwhite, hbreak⟩ := Tag.isSolid_eq_true.mp hindicator
    have hsolid (x : Char) (hx : isAnchorChar x = true) : isWhite x = false ∧ isBreak x = false :=
      Tag.isSolid_eq_true.mp (Tag.isSolid_of_class isAnchorChar (by decide) hx)
    have htaken := (takes_cons (c := s.cursor) true hrest hbreak).trans
      (takes_skip_takeWhile fun x hx => (hsolid x hx).2)
    have htoken := htoken _ rfl (by simpa using hname)
    have hletters : ∀ x ∈ (s.cursor.skip 1).rest.takeWhile isAnchorChar, isAnchorChar x = true :=
      fun _ => List.mem_takeWhile_imp
    change s.cursor.Takes ([ch] ++ (s.cursor.skip 1).rest.takeWhile isAnchorChar)
      ((s.cursor.skip 1).skip ((s.cursor.skip 1).rest.takeWhile isAnchorChar).length) at htaken
    -- from here on the letters are any name with these properties
    generalize (s.cursor.skip 1).rest.takeWhile isAnchorChar = name at *
    have hpassed : s.cursor.Passes (s.cursor.skip (name.length + 1)) := by
      refine (htaken.passes (List.forall_mem_cons.mpr ⟨hwhite, fun x hx => ?_⟩)
        (by simpa using hmarker)).trans (.done ?_ ?_)
      · exact (hsolid x (hletters x hx)).1
      · simp
      · exact htaken.mark.symm
    have hmoved : { s.saveKey with
        keyAllowed := false, cursor := s.cursor.skip (name.length + 1) }.Keeps place token rs :=
      { hs.saveKey hi hnext with place := hi.passes hs.place hpassed }
    exact hmoved.emits s (hkind _ _) htoken

theorem readTag (hs : s.Keeps place token rs) (hstart : s.cursor.next? = some '!')
    (h : s.readTag = some s') : s'.Keeps place token (rs ++ s.scalarTo s') := by
  have hnext : s.cursor.next? ≠ some '#' := by rw [hstart]; decide
  unfold Lexer.readTag at h
  obtain ⟨⟨handle, cursor⟩, hread, h⟩ := Option.bind_eq_some_iff.mp h
  cases h
  rw [cursor_saveKey] at hread
  have hsaved : { s.saveKey with keyAllowed := false, cursor }.Keeps place token rs :=
    { hs.saveKey hi hnext with place := hi.passes hs.place (Tag.passes_read hstart hread) }
  exact hsaved.emits s rfl (hi.bare hs.place hnext (by trivial))

end Keeps

end

/-! ## Scalars -/

/-- Indentations are taken back whatever key may have begun. -/
theorem dropLooseIndents_eq (s : Lexer) (pending : Option PendingKey) (keyAllowed : Bool) :
    { s with pending, keyAllowed }.dropLooseIndents =
      { s with
        pending, keyAllowed
        indent := s.dropLooseIndents.indent, indents := s.dropLooseIndents.indents } := by
  unfold dropLooseIndents
  dsimp only
  split <;> rfl

/-- Whether a scalar is read from a state at its first character to the next state. -/
def ReadsScalar (s s' : Lexer) : Prop :=
  ∃ r : ScalarReading, r.lexer = s ∧ r.EndsAt s'.cursor ∧ s'.emitted = r.token :: s.emitted ∧
    s'.pending = s.keyAt ∧ s'.outer = s.outer

theorem readsScalar_of_readPlain (h : s.readPlain = some s') : s.ReadsScalar s' := by
  unfold readPlain at h
  rw [saveKey_eq, dropLooseIndents_eq s s.keyAt false] at h
  obtain ⟨⟨text, ended, cursor⟩, hread, h⟩ := Option.bind_eq_some_iff.mp h
  cases h
  obtain ⟨gap, hwords⟩ := Plain.passes_read hread
  exact ⟨_, rfl, .plain hwords, rfl, rfl, rfl⟩

theorem readsScalar_of_readQuoted {single : Bool} (h : s.readQuoted single = some s')
    (hstart : s.cursor.next? = some (if single then '\'' else '"')) : s.ReadsScalar s' := by
  unfold readQuoted at h
  rw [saveKey_eq] at h
  obtain ⟨⟨text, cursor⟩, hread, h⟩ := Option.bind_eq_some_iff.mp h
  obtain ⟨t, ht, h⟩ := Option.bind_eq_some_iff.mp h
  obtain ⟨hteq, hpassed, -⟩ := skipToToken_eq_some ht
  rw [hteq] at h
  cases h
  unfold Quoted.read at hread
  obtain ⟨⟨text', c⟩, hbody, hread⟩ := Option.bind_eq_some_iff.mp hread
  obtain ⟨⟨seen, c'⟩, hblanks, hread⟩ := Option.bind_eq_some_iff.mp hread
  dsimp only at hread
  split at hread
  · cases hread
    exact ⟨_, rfl, .quoted hstart hbody ((passes_skipBlanks hblanks).trans hpassed), rfl, rfl, rfl⟩
  · cases hread

theorem readsScalar_of_readBlock {literal : Bool} (h : s.readBlock literal = some s')
    (hstart : s.cursor.next? = some (if literal then '|' else '>')) : s.ReadsScalar s' := by
  unfold readBlock at h
  rw [saveKey_eq, dropLooseIndents_eq s s.keyAt true] at h
  obtain ⟨⟨text, mark, cursor⟩, hread, h⟩ := Option.bind_eq_some_iff.mp h
  cases h
  exact ⟨_, rfl, .block hstart hread, rfl, rfl, rfl⟩

/-- What holds after a step: the scalar that it reads, if any, is one more, and the tokens of the
whole source are good. -/
def KeepsTo (place : List ScalarReading → Cursor → Prop) (token : Token → Prop)
    (rs : List ScalarReading) (s : Lexer) : Step → Prop
  | .more next => next.Keeps place token (rs ++ s.readingTo next)
  | .done tokens => (∀ t ∈ tokens, token t) ∧ tokens.filter (·.isScalar) = rs.map (·.token)

section

variable (hi : IsInvariant place token)
include hi

namespace Keeps

/-- A scalar is read. -/
theorem reads (hs : s.Keeps place token rs) (hnext : s.cursor.next? ≠ some '#')
    (h : s.ReadsScalar s') : s'.Keeps place token (rs ++ s.scalarTo s') := by
  obtain ⟨r, rfl, hr, hemitted, hpending, houter⟩ := h
  have hread : r.lexer.scalarTo s' = [r] := by
    rw [scalarTo, hemitted]
    rfl
  obtain ⟨hplace, htoken⟩ := hi.scalar hs.place hnext hr
  rw [hread]
  refine ⟨hplace, ?_, fun key hkey => (hs.saveKey hi hnext).keys key ?_, ?_⟩
  · rw [hemitted]
    exact List.forall_mem_cons.mpr ⟨htoken, hs.tokens⟩
  · rwa [saveKey_eq, ← houter, ← hpending]
  · rw [hemitted, List.filter_cons_of_pos rfl, hs.scalars]
    simp

/-! ## Sources -/

/-- Reading the next token keeps what holds. -/
theorem readContent {ch : Char} {rest : List Char} (hs : s.Keeps place token rs)
    (hrest : s.cursor.rest = ch :: rest) (hmarker : ch ≠ '#')
    (h : s.readContent ch rest.head? = some s') :
    s'.Keeps place token (rs ++ s.scalarTo s') := by
  have hstart : s.cursor.next? = some ch := by rw [next?, hrest]; rfl
  have hnext : s.cursor.next? ≠ some '#' := by rw [hstart]; simpa using hmarker
  have hplain (h : s.readPlain = some s') : s'.Keeps place token (rs ++ s.scalarTo s') :=
    hs.reads hi hnext (readsScalar_of_readPlain h)
  unfold Lexer.readContent at h
  dsimp only at h
  -- the cases are the characters a token can start with; at any other one a plain scalar starts
  split at h
  case h_1 | h_2 => exact hs.readFlowStart hi (by trivial) hstart (by decide) hmarker h
  case h_3 | h_4 => exact hs.readFlowEnd hi (by trivial) hstart (by decide) hmarker h
  case h_5 => exact hs.readFlowEntry hi hstart h
  case h_6 =>
    split at h
    · exact hs.readBlockEntry hi hstart h
    · exact hplain h
  case h_7 =>
    split at h
    · exact hs.readKey hi hstart h
    · exact hplain h
  case h_8 =>
    split at h
    · exact hs.readValue hi hstart h
    · split at h
      · exact hs.readValue hi hstart h
      · exact hplain h
  case h_9 =>
    exact hs.readName hi hstart (by decide) hmarker (fun _ _ => rfl)
      (fun _ _ _ => hi.bare hs.place hnext (by trivial)) h
  case h_10 =>
    exact hs.readName hi hstart (by decide) hmarker (fun _ _ => rfl)
      (fun _ hname hne => hi.anchor hs.place hstart hname hne) h
  case h_11 => exact hs.readTag hi hstart h
  case h_12 | h_13 =>
    split at h
    · exact hplain h
    · exact hs.reads hi hnext (readsScalar_of_readBlock h hstart)
  case h_14 | h_15 => exact hs.reads hi hnext (readsScalar_of_readQuoted h hstart)
  case h_16 | h_17 | h_18 => cases h
  case h_19 => exact hplain h

/-- At the end of the source only ends are added. -/
theorem readStreamEnd {tokens : List Token} (hs : s.Keeps place token rs)
    (h : s.readStreamEnd = some tokens) :
    (∀ t ∈ tokens, token t) ∧ tokens.filter (·.isScalar) = rs.map (·.token) := by
  have hended (line : Nat) (indents : List Indentation) :
      (indents.foldl (fun s i => if i.endsBlock then s.emit .blockEnd ⟨line, 1⟩ else s) s).Keeps
        place token rs := by
    clear h
    induction indents generalizing s with
    | nil => exact hs
    | cons i indents ih =>
      refine ih ?_
      dsimp only
      split
      · exact hs.emit rfl (hi.margin line (by trivial))
      · exact hs
  -- the ends of blocks are in the margin, of the last line if it is empty or else of the next
  obtain ⟨line, hline⟩ : ∃ line, (if s.mark.column = 0 then s.mark.position
      else ⟨s.mark.line + 1, 1⟩ : Position) = ⟨line, 1⟩ := by
    split
    · next hzero => exact ⟨s.mark.line, by rw [Mark.position, hzero]⟩
    · exact ⟨_, rfl⟩
  unfold Lexer.readStreamEnd at h
  split at h
  · cases h
  · dsimp only at h
    rw [hline] at h
    have hclosed : (if s.inFlow then s else s.indents.foldl
        (fun s i => if i.endsBlock then s.emit .blockEnd ⟨line, 1⟩ else s) s).Keeps
        place token rs := by
      split
      · exact hs
      · exact hended line s.indents
    have hlast : token ⟨.streamEnd, ⟨line, 1⟩⟩ := hi.margin line (by trivial)
    have hend := hclosed.emit (by rfl) hlast
    cases h
    refine ⟨fun t ht => hend.tokens t (List.mem_reverse.mp ht), ?_⟩
    rw [List.filter_reverse, hend.scalars, List.reverse_reverse]

/-- A step keeps what holds. -/
theorem step {r : Step} (hs : s.Keeps place token rs) (h : s.step = some r) :
    s.KeepsTo place token rs r := by
  unfold Lexer.step at h
  obtain ⟨t, ht, h⟩ := Option.bind_eq_some_iff.mp h
  obtain ⟨u, hu, h⟩ := Option.bind_eq_some_iff.mp h
  have hcursor : u.cursor = t.cursor := cursor_dropStaleKeys hu
  have hnext : u.cursor.next? ≠ some '#' := hcursor.symm ▸ (skipToToken_eq_some ht).2.2
  have hclosed := ((hs.skipToToken hi ht).dropStaleKeys hu).closeBlocks hi hnext u.column
  have hahead : s.ahead = some (u.closeBlocks u.column) := by
    unfold Lexer.ahead
    rw [ht, Option.bind_eq_bind, Option.bind_some, hu]
    rfl
  rw [← cursor_closeBlocks u.column] at hnext
  -- what is read to the next token is read from its place
  have hmore {o : Option Lexer} (ho : ∀ s', o = some s' →
        s'.Keeps place token (rs ++ (u.closeBlocks u.column).scalarTo s'))
      (h : o.map Step.more = some r) : s.KeepsTo place token rs r := by
    obtain ⟨next, hnext, rfl⟩ := Option.map_eq_some_iff.mp h
    simp only [KeepsTo, readingTo, hahead]
    exact ho next hnext
  dsimp only at h
  split at h
  · obtain ⟨tokens, htokens, rfl⟩ := Option.map_eq_some_iff.mp h
    exact hclosed.readStreamEnd hi htokens
  · next ch rest hrest =>
    have hstart : (u.closeBlocks u.column).cursor.next? = some ch := by rw [next?, hrest]; rfl
    have hmarker : ch ≠ '#' := by
      rintro rfl
      exact hnext hstart
    split at h
    · next hpercent =>
      rw [Bool.and_eq_true, decide_eq_true_eq, decide_eq_true_eq] at hpercent
      exact hmore (fun _ => hclosed.readDirective hi (hpercent.2 ▸ hstart)) h
    · split at h
      · next hdashes =>
        rw [Bool.and_eq_true] at hdashes
        exact hmore (fun _ => hclosed.readDocumentStart hi hdashes.2) h
      · split at h
        · next hdots =>
          rw [Bool.and_eq_true] at hdots
          exact hmore (fun _ => hclosed.readDocumentEnd hi hdots.2) h
        · split at h
          · cases h
          · exact hmore (fun _ => hclosed.readContent hi hrest hmarker) h

omit hi in
/-- The tokens that are settled are the first of those so far. -/
theorem settled (hs : s.Keeps place token rs) :
    (∀ t ∈ s.settled, token t) ∧ s.settled.filter (·.isScalar) <+: rs.map (·.token) := by
  have hsettled : s.settled <+: s.emitted.reverse := by
    unfold Lexer.settled
    dsimp only
    split
    · exact List.take_prefix _ _
    · exact List.prefix_rfl
  refine ⟨fun t ht => hs.tokens t (List.mem_reverse.mp (hsettled.subset ht)), ?_⟩
  have hfilter := hsettled.filter (·.isScalar)
  rwa [List.filter_reverse, hs.scalars, List.reverse_reverse] at hfilter

end Keeps

omit hi in
/-- At most one scalar is read in a step. -/
theorem readingTo_eq (s next : Lexer) : s.readingTo next = [] ∨ ∃ r, s.readingTo next = [r] := by
  unfold readingTo
  split
  · unfold scalarTo
    split
    · exact .inr ⟨_, rfl⟩
    · exact .inl rfl
  · exact .inl rfl

/-- What an invariant says of a run: the tokens have their property, the scalars among them are the
first that are read, and wherever some scalars have been read, a place has its property. -/
theorem Keeps.run (hs : s.Keeps place token rs) :
    (∀ t ∈ s.run, token t) ∧
      s.run.filter (·.isScalar) <+: (rs ++ s.readings).map (·.token) ∧
      ∀ n, ∃ c, place (rs ++ s.readings.take n) c := by
  -- only the step forward, the fourth case, reads anything
  fun_induction Lexer.run s generalizing rs
  case case1 s hdrop =>
    rw [readings.eq_def, hdrop]
    refine ⟨hs.settled.1, ?_, fun n => ⟨s.cursor, ?_⟩⟩
    · simpa using hs.settled.2
    · simpa using hs.place
  case case2 s current hdrop hstep =>
    have hcurrent := hs.dropStaleKeys hdrop
    rw [readings.eq_def, hdrop]
    simp only [hstep]
    refine ⟨hcurrent.settled.1, ?_, fun n => ⟨s.cursor, ?_⟩⟩
    · simpa using hcurrent.settled.2
    · simpa using hs.place
  case case3 s current hdrop tokens hstep =>
    obtain ⟨htokens, hscalars⟩ := (hs.dropStaleKeys hdrop).step hi hstep
    rw [readings.eq_def, hdrop]
    simp only [hstep]
    refine ⟨htokens, ?_, fun n => ⟨s.cursor, ?_⟩⟩
    · simp [hscalars]
    · simpa using hs.place
  case case4 s current hdrop next hstep hlt ih =>
    have hnext := (hs.dropStaleKeys hdrop).step hi hstep
    obtain ⟨htokens, hscalars, hplaces⟩ := ih hnext
    rw [readings.eq_def, hdrop]
    simp only [hstep, if_pos hlt]
    rw [← List.append_assoc]
    refine ⟨htokens, hscalars, fun n => ?_⟩
    cases n with
    | zero => exact ⟨s.cursor, by simpa using hs.place⟩
    | succ n =>
      rcases readingTo_eq current next with hread | ⟨r, hread⟩
      · rw [hread] at hplaces ⊢
        simpa using hplaces (n + 1)
      · rw [hread] at hplaces ⊢
        simpa using hplaces n
  case case5 s current hdrop next hstep hlt =>
    have hcurrent := hs.dropStaleKeys hdrop
    rw [readings.eq_def, hdrop]
    simp only [hstep, if_neg hlt]
    refine ⟨hcurrent.settled.1, ?_, fun n => ⟨s.cursor, ?_⟩⟩
    · simpa using hcurrent.settled.2
    · simpa using hs.place

end

end Lexer

end QueryBook.Yaml
