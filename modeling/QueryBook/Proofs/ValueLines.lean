import QueryBook.Proofs.LiteralBlocks

/-!
# Lexing values

Behind the `:` of a key its value is awaited. A scalar on the line is read up to the text that
follows less indented; an alias and an anchor are read up to the end of the line.
-/

namespace QueryBook.Yaml

open Canonical
open Text (unlines)

namespace Lexer

variable {s : Lexer} {ls : List (List Char)} {line column k : Nat} {blocks : List Nat}
  {tokens : List Token} {text : String}

/-- Where the line ends behind a `:`, the next lines are awaited. -/
theorem AwaitsValue.awaits (h : AwaitsValue s tokens blocks line column ('\n' :: unlines ls)) :
    s.Awaits ls (line + 1) tokens blocks := by
  rw [← h.line]
  exact awaits_of_break h.toInBlocks h.emitted h.pending h.rest

/-- Behind a blank the value is the next token. -/
theorem AwaitsValue.run_eq {x : Char} {more : List Char}
    (h : AwaitsValue s tokens blocks line column (' ' :: x :: more))
    (hcolumn : blockIndent blocks < column) (hwhite : isWhite x = false)
    (hbreak : isBreak x = false) (hx : x ∉ ['#', '%']) :
    ∃ t, AwaitsValue t tokens blocks line (column + 1) (x :: more) ∧
      ∀ s', t.readContent x more.head? = some s' → s'.cursor.rest.length ≤ more.length →
        s.run = s'.run := by
  have ht : AwaitsValue { s with cursor := s.cursor.skipWhite } tokens blocks line (column + 1)
      (x :: more) := by
    refine ⟨⟨h.outer, h.singlePairs, h.indent, h.indents⟩, ?_, h.line, ?_, h.emitted, h.pending,
      h.keyAllowed⟩
    · rw [Cursor.rest_skipWhite, h.rest]
      rfl
    · rw [← h.column]
      rfl
  have hskip : s.skipToToken = some { s with cursor := s.cursor.skipWhite } := by
    rw [skipToToken_cons h.rest, if_neg (by simp), if_pos (by decide)]
    exact skipToToken_text ht.rest hwhite hbreak (fun hh => hx (by simp [hh]))
  refine ⟨_, ht, ?_⟩
  intro s' hread hlength
  have hdocument : s.cursor.skipWhite.atDocumentIndicator = false := by
    rw [Cursor.atDocumentIndicator, ht.column]
    rfl
  have hindent : s.indent ≤ ({ s with cursor := s.cursor.skipWhite } : Lexer).column := by
    rw [h.indent, Lexer.column, ht.column, if_pos rfl]
    omega
  have hstep := stepAt_content (dropStaleKeys_of_none ht.pending ht.outer)
    (ht.closeBlocks_of_le hindent) ht.rest hdocument (fun hh => hx (by simp [hh])) hindent
  rw [hread] at hstep
  refine run_eq_run (dropStaleKeys_of_none h.pending h.outer) hskip hstep ?_
  rw [ht.rest, List.length_cons]
  omega

/-- Where a value is awaited, the position is known. -/
theorem AwaitsValue.position {rest : List Char}
    (h : AwaitsValue s tokens blocks line column rest) :
    s.mark.position = ⟨line, column + 1⟩ := by
  show (⟨s.cursor.line, s.cursor.column + 1⟩ : Position) = _
  rw [h.line, h.column]

/-- No key begins where a value is awaited. -/
theorem AwaitsValue.keyAt {rest : List Char} (h : AwaitsValue s tokens blocks line column rest) :
    s.keyAt = none := by
  rw [Lexer.keyAt, h.keyAllowed, if_neg (by decide)]
  exact h.pending

/-! ## Scalars -/

/-- A text that is written plain is read, before lines that are outdented. -/
theorem AwaitsValue.readPlain (hsafe : isPlainSafe text = true)
    (h : AwaitsValue s tokens blocks line column (text.toList ++ '\n' :: unlines ls))
    (hpos : 0 < column) (hcolumn : blockIndent blocks < column)
    (hk : (k : Int) ≤ blockIndent blocks) (hls : Outdented k ls) :
    ∃ s' : Lexer, s.readPlain = some s' ∧ s'.cursor.rest.length ≤ (unlines ls).length + 1 ∧
      s'.Awaits ls (line + 1) (⟨.scalar .plain text, ⟨line, column + 1⟩⟩ :: tokens) blocks := by
  obtain ⟨hplain, -, -⟩ := plainFrom_of_isPlainSafe hsafe
  obtain ⟨rest, hunlines, hgap, hends, hgapcolumn⟩ := hls.gap
  generalize gapBefore ls = gap at hunlines hgap hgapcolumn
  have hbehind : (s.cursor.skip text.toList.length).rest = '\n' :: unlines ls := by
    rw [Cursor.rest_skip, h.rest, List.drop_left]
  have hgap' : IsGap ('\n' :: gap) := by
    intro c hc
    rcases List.mem_cons.mp hc with rfl | hc
    · exact .inr rfl
    · exact hgap c hc
  have hgaprest : (s.cursor.skip text.toList.length).rest = ('\n' :: gap) ++ rest := by
    rw [hbehind, hunlines]
    rfl
  obtain ⟨g, hskip, hbroken⟩ := Plain.skipGap_gap (g := {}) hgap' hgaprest hends
  -- what lies behind the gap is outdented, so the scalar ends before it
  have hlast : (((s.cursor.skip text.toList.length).pass ('\n' :: gap)).column : Int) <
      blockIndent blocks + 1 := by
    have := hgapcolumn (s.cursor.skip text.toList.length).skipBreak rfl
    show (((s.cursor.skip text.toList.length).skipBreak.pass gap).column : Int) < _
    omega
  have hdocument : s.cursor.atDocumentIndicator = false := by
    rw [Cursor.atDocumentIndicator, h.column, decide_eq_false (by omega)]
    rfl
  have hread := Plain.read_value hplain h.rest (by rw [h.column]; omega) hdocument hskip hlast
  rw [hbroken (.inr List.mem_cons_self)] at hread
  refine ⟨_, readPlain_eq h.toInBlocks hread, ?_, ?_⟩
  · show ((s.cursor.skip text.toList.length).pass ('\n' :: gap)).rest.length ≤ _
    rw [Cursor.rest_pass hgap' hgaprest, hunlines, List.length_append]
    omega
  · rw [h.position, String.ofList_toList, h.emitted, ← h.line]
    refine awaits_of_pass (?_ : InBlocks _ blocks false) rfl h.keyAt rfl hgap hunlines
      (congrArg (Cursor.pass · gap) (Cursor.skipBreak_eq hbehind))
    exact ⟨h.outer, h.singlePairs, (Int.add_zero _).symm, rfl⟩

/-- A text in double quotes is read, before lines that are outdented. -/
theorem AwaitsValue.readQuoted
    (h : AwaitsValue s tokens blocks line column
      ((doubleQuoted text).toList ++ '\n' :: unlines ls))
    (hcolumn : blockIndent blocks < column) (hls : Outdented k ls) :
    ∃ s' : Lexer, s.readQuoted false = some s' ∧
      s'.cursor.rest.length ≤ (unlines ls).length + 1 ∧
      s'.Awaits ls (line + 1) (⟨.scalar .doubleQuoted text, ⟨line, column + 1⟩⟩ :: tokens)
        blocks := by
  have hindent : s.indent ≤ s.cursor.column + 1 := by
    rw [h.indent, h.column, if_pos rfl]
    omega
  have hread := Quoted.read_doubleQuoted hindent h.rest (.inr rfl)
  have hbehind : (s.cursor.skip (doubleQuoted text).toList.length).rest = '\n' :: unlines ls := by
    rw [Cursor.rest_skip, h.rest, List.drop_left]
  generalize hc : s.cursor.skip (doubleQuoted text).toList.length = c at hread hbehind
  have hawaits : Awaits { s with pending := s.keyAt, keyAllowed := false, cursor := c } ls
      (line + 1) tokens blocks := by
    have hcline : c.line = line := by
      rw [← hc, ← h.line]
      rfl
    rw [← hcline]
    exact awaits_of_break ⟨h.outer, h.singlePairs, h.indent, h.indents⟩ h.emitted h.keyAt hbehind
  -- the reader looks for the next token at once, to see if the scalar is a key
  obtain ⟨t, hskip⟩ := hawaits.exists_skip hls
  obtain ⟨ht, hpassed, -⟩ := skipToToken_eq_some hskip
  have hlength : t.cursor.rest.length ≤ c.rest.length := hpassed.crosses.suffix.length_le
  have htemitted : t.emitted = tokens := by
    rw [ht]
    exact h.emitted
  refine ⟨_, readQuoted_eq h.toInBlocks hread hskip, ?_, ?_⟩
  · show t.cursor.rest.length ≤ _
    rw [hbehind] at hlength
    exact hlength
  · rw [h.position, String.ofList_toList, htemitted]
    exact awaits_of_skip hawaits hskip _ _

/-- A written text is read as the value, before lines that are outdented. -/
theorem AwaitsValue.run_eq_of_text
    (h : AwaitsValue s tokens blocks line column
      (' ' :: ((Canonical.scalar text).toList ++ '\n' :: unlines ls)))
    (hcolumn : blockIndent blocks < column) (hk : (k : Int) ≤ blockIndent blocks)
    (hls : Outdented k ls) :
    ∃ s' : Lexer, s.run = s'.run ∧
      s'.Awaits ls (line + 1) (scalarToken text ⟨line, column + 2⟩ :: tokens) blocks := by
  obtain ⟨x, xs, hx, hwhite, hbreak, hstart⟩ := scalar_cons text
  rw [hx, List.cons_append] at h
  obtain ⟨t, ht, hrun⟩ := h.run_eq hcolumn hwhite hbreak (fun hmem => hstart (by
    revert hmem
    simp only [List.mem_cons]
    tauto))
  rw [← List.cons_append, ← hx] at ht
  have hcolumn' : blockIndent blocks < (column + 1 : Nat) := by omega
  have hlength : (unlines ls).length + 1 ≤ (xs ++ '\n' :: unlines ls).length := by
    rw [List.length_append, List.length_cons]
    omega
  -- the text is written plain if that is safe, else between double quotes
  unfold scalarToken styleOf
  unfold Canonical.scalar at ht hx
  split at ht
  · next hsafe =>
    rw [if_pos hsafe] at hx ⊢
    have hxind : x ∉ indicators := (plainFrom_of_isPlainSafe hsafe).2.1 x (by rw [hx]; rfl)
    obtain ⟨s', hread, hle, hs'⟩ := ht.readPlain hsafe (Nat.succ_pos _) hcolumn' hk hls
    exact ⟨s', hrun s' ((readContent_plain hxind _).trans hread) (Nat.le_trans hle hlength), hs'⟩
  · next hsafe =>
    rw [if_neg hsafe] at hx ⊢
    have hquote : x = '"' := by
      rw [Quoted.toList_doubleQuoted] at hx
      cases hx
      rfl
    obtain ⟨s', hread, hle, hs'⟩ := ht.readQuoted hcolumn' hls
    refine ⟨s', hrun s' ?_ (Nat.le_trans hle hlength), hs'⟩
    rw [hquote]
    exact hread

/-- The block of a text is read as the value, before lines that are outdented. -/
theorem AwaitsValue.run_eq_of_literal {outer : List Nat}
    (h : AwaitsValue s tokens (k :: outer) line column
      (' ' :: (Sql.literalBlock text.toList (k + 2) ++ '\n' :: unlines ls)))
    (hcolumn : k < column) (hreturn : '\r' ∉ text.toList) (hne : Sql.body text.toList ≠ [])
    (hls : Outdented k ls) :
    ∃ s' : Lexer, s.run = s'.run ∧
      s'.Awaits ls (line + 1 + (Sql.blockLines text.toList (k + 2)).length)
        (⟨.scalar .literal (String.ofList (Block.withBlanks text.toList (Block.blanksBefore ls))),
          ⟨line + 1 + Block.blanksBefore (Sql.bodyLines text.toList), k + 3⟩⟩ :: tokens)
        (k :: outer) := by
  obtain ⟨more, hmore⟩ : ∃ more, Sql.literalBlock text.toList (k + 2) = '|' :: more := ⟨_, rfl⟩
  rw [hmore, List.cons_append] at h
  obtain ⟨t, ht, hrun⟩ := h.run_eq (Int.ofNat_lt.mpr hcolumn) (by decide) (by decide) (by decide)
  have hrest : t.cursor.rest = Sql.literalBlock text.toList (k + 2) ++ '\n' :: unlines ls := by
    rw [ht.rest, hmore]
    rfl
  obtain ⟨index, index', hblock⟩ := Block.read_literalBlock hreturn hne hls hrest
  have hread : t.readContent '|' (more ++ '\n' :: unlines ls).head? = t.readBlock true := by
    rw [readContent, ht.inFlow, if_neg (by decide)]
  -- the empty lines that belong to the text are passed with those behind it
  have hafter := hls.blanks (Sql.trailing text.toList - 1)
  obtain ⟨rest, hunlines, hgap, -, -⟩ := hafter.gap
  refine ⟨_, hrun _ (hread.trans (readBlock_eq ht.toInBlocks hblock)) ?_, ?_⟩
  · have hlength := congrArg List.length (Sql.literalBlock_eq text.toList (k + 2) (unlines ls))
    rw [hmore, Sql.blockLines, Text.unlines_append, List.append_assoc, ← Text.unlines_append]
      at hlength
    rw [Cursor.rest_pass hgap hunlines]
    rw [hunlines] at hlength
    simp only [List.length_append, List.length_cons] at hlength ⊢
    have hheader : 0 < (Sql.header text.toList).length := by simp [Sql.header]
    omega
  · rw [ht.line, ht.emitted]
    rw [Sql.blockLines, List.length_append, List.length_map, List.length_replicate, ← Nat.add_assoc]
    refine Awaits.skipBlanks (awaits_of_pass (?_ : InBlocks _ (k :: outer) false) rfl ht.keyAt rfl hgap
      hunlines rfl)
    exact ⟨ht.outer, ht.singlePairs, (Int.add_zero _).symm, rfl⟩

/-! ## Names -/

/-- The characters of a name end at the end of the line. -/
theorem takeWhile_name {name rest : List Char} (hname : ∀ c ∈ name, isAnchorChar c = true) :
    (name ++ '\n' :: rest).takeWhile isAnchorChar = name := by
  rw [List.takeWhile_append_of_pos hname, List.takeWhile_cons_of_neg (by decide), List.append_nil]

/-- The name behind an indicator is read. -/
theorem AwaitsValue.readName {x : Char} {name : List Char} (kind : String → TokenKind)
    (h : AwaitsValue s tokens blocks line column (x :: (name ++ '\n' :: unlines ls)))
    (hne : name ≠ []) (hname : ∀ c ∈ name, isAnchorChar c = true) :
    ∃ s' : Lexer, s.readName kind = some s' ∧ s'.cursor.rest.length ≤ (unlines ls).length + 1 ∧
      AwaitsValue s' (⟨kind (String.ofList name), ⟨line, column + 1⟩⟩ :: tokens) blocks line
        (column + (name.length + 1)) ('\n' :: unlines ls) := by
  have htake : (s.cursor.skip 1).rest.takeWhile isAnchorChar = name := by
    rw [Cursor.rest_skip, h.rest]
    exact takeWhile_name hname
  have hrest : (s.cursor.skip (name.length + 1)).rest = '\n' :: unlines ls := by
    rw [Cursor.rest_skip, h.rest, List.drop_succ_cons, List.drop_left]
  have hkey := h.keyAt
  unfold Lexer.readName
  rw [saveKey_eq]
  dsimp only
  rw [htake, if_neg (by simp [hne])]
  refine ⟨_, rfl, ?_, ⟨⟨h.outer, h.singlePairs, h.indent, h.indents⟩, hrest, h.line, ?_, ?_, h.keyAt,
    rfl⟩⟩
  · show (s.cursor.skip (name.length + 1)).rest.length ≤ _
    rw [hrest]
    exact Nat.le_refl _
  · show s.cursor.column + (name.length + 1) = _
    rw [h.column]
  · show _ :: s.emitted = _
    rw [h.emitted, h.position]

/-- An alias is read as the value. -/
theorem AwaitsValue.run_eq_of_reference {name : List Char}
    (h : AwaitsValue s tokens blocks line column (' ' :: '*' :: (name ++ '\n' :: unlines ls)))
    (hcolumn : blockIndent blocks < column) (hne : name ≠ [])
    (hname : ∀ c ∈ name, isAnchorChar c = true) :
    ∃ s' : Lexer, s.run = s'.run ∧
      s'.Awaits ls (line + 1) (⟨.reference (String.ofList name), ⟨line, column + 2⟩⟩ :: tokens)
        blocks := by
  obtain ⟨t, ht, hrun⟩ := h.run_eq hcolumn (by decide) (by decide) (by decide)
  obtain ⟨s', hread, hlength, hs'⟩ := ht.readName .reference hne hname
  refine ⟨s', hrun s' hread (Nat.le_trans hlength ?_), hs'.awaits⟩
  rw [List.length_append, List.length_cons]
  omega

/-- An anchor is read, and its node is awaited. -/
theorem AwaitsValue.run_eq_of_anchor {name : List Char}
    (h : AwaitsValue s tokens blocks line column (' ' :: '&' :: (name ++ '\n' :: unlines ls)))
    (hcolumn : blockIndent blocks < column) (hne : name ≠ [])
    (hname : ∀ c ∈ name, isAnchorChar c = true) :
    ∃ s' : Lexer, s.run = s'.run ∧
      s'.Awaits ls (line + 1) (⟨.anchor (String.ofList name), ⟨line, column + 2⟩⟩ :: tokens)
        blocks := by
  obtain ⟨t, ht, hrun⟩ := h.run_eq hcolumn (by decide) (by decide) (by decide)
  obtain ⟨s', hread, hlength, hs'⟩ := ht.readName .anchor hne hname
  refine ⟨s', hrun s' hread (Nat.le_trans hlength ?_), hs'.awaits⟩
  rw [List.length_append, List.length_cons]
  omega

end Lexer

end QueryBook.Yaml
