import QueryBook.Proofs.Passing
import QueryBook.Proofs.Pieces
import QueryBook.Proofs.WrittenScalars

/-!
# Lexing line by line

How the lexer goes through the lines of a document of block mappings: keys, their values and the
lines between them. Each statement leads from one state to a later one with the same outcome, and
says which tokens have come in between.
-/

namespace QueryBook

namespace Yaml

open Text (unlines)

/-! ## Gaps -/

/-- Whether a text is spaces and line feeds. -/
def IsGap (gap : List Char) : Prop := ∀ c ∈ gap, c = ' ' ∨ c = '\n'

theorem isGap_break : IsGap ['\n'] := by simp [IsGap]

theorem isGap_spaces (k : Nat) : IsGap (List.replicate k ' ') :=
  fun _ hc => .inl (List.eq_of_mem_replicate hc)

/-- Whether a text does not go on with a blank or a line break. -/
def EndsGap (text : List Char) : Prop := ∀ c ∈ text.head?, isWhite c = false ∧ isBreak c = false

namespace Cursor

/-- Moves over spaces and line feeds. -/
def pass (c : Cursor) : List Char → Cursor
  | [] => c
  | ch :: gap => (if ch = '\n' then c.skipBreak else c.skipWhite).pass gap

/-- Moving over a line feed moves to the next line. -/
theorem skipBreak_eq {c : Cursor} {rest : List Char} (h : c.rest = '\n' :: rest) :
    c.skipBreak = ⟨rest, ⟨c.mark.index + 1, c.line + 1, 0⟩, true⟩ := by
  unfold skipBreak
  rw [h]
  rfl

/-- What is behind a gap. -/
theorem rest_pass {gap rest : List Char} {c : Cursor} (hgap : IsGap gap)
    (h : c.rest = gap ++ rest) : (c.pass gap).rest = rest := by
  induction gap generalizing c with
  | nil => exact h
  | cons ch gap ih =>
    refine ih (fun d hd => hgap d (List.mem_cons_of_mem _ hd)) ?_
    split
    · next hc =>
      rw [hc] at h
      rw [skipBreak_eq h]
      rfl
    · rw [rest_skipWhite, h]
      rfl

/-- Spaces move within the line. -/
theorem pass_spaces (c : Cursor) (k : Nat) : c.pass (List.replicate k ' ') = c.move k false := by
  induction k generalizing c with
  | zero => simp [pass, move]
  | succ k ih =>
    rw [List.replicate_succ, pass, if_neg (by decide), ih]
    simp [skipWhite, move, Nat.add_comm, Nat.add_left_comm]

end Cursor

/-- Behind a gap the reader of plain scalars goes no further. -/
theorem Plain.skipGap_gap {indent : Int} {g : Gap} {c : Cursor} {gap rest : List Char}
    (hgap : IsGap gap) (hrest : c.rest = gap ++ rest) (hend : EndsGap rest) :
    ∃ g', skipGap indent g c = some (g', c.pass gap) ∧
      (g.broken = true ∨ '\n' ∈ gap → g'.broken = true) := by
  induction gap generalizing c g with
  | nil =>
    refine ⟨g, ?_, ?_⟩
    · rw [skipGap]
      split
      · rfl
      · next ch tail hc =>
        rw [hrest] at hc
        obtain ⟨hw, hb⟩ := hend ch (by rw [List.nil_append] at hc; rw [hc]; rfl)
        rw [hw, hb]
        rfl
    · rintro (h | h)
      · exact h
      · cases h
  | cons ch gap ih =>
    have hmore := fun d hd => hgap d (List.mem_cons_of_mem _ hd)
    rw [skipGap]
    split
    · next hc => simp [hrest] at hc
    · next x tail hc =>
      rw [hrest, List.cons_append, List.cons.injEq] at hc
      rw [← hc.1]
      -- a space keeps what the gap says of line breaks, and a line break sets it
      rcases hgap ch List.mem_cons_self with rfl | rfl
      · obtain ⟨g', hg, hb⟩ := ih (g := g.white ' ') (c := c.skipWhite) hmore
          (by rw [Cursor.rest_skipWhite, hrest]; rfl)
        refine ⟨g', ?_, ?_⟩
        · rw [if_pos (by decide), if_neg (by simp), hg]
          rfl
        · rintro (h | h)
          · refine hb (.inl ?_)
            rw [Gap.white, if_pos h]
            exact h
          · exact hb (.inr ((List.mem_cons.mp h).resolve_left (by decide)))
      · obtain ⟨g', hg, hb⟩ := ih (g := g.lineBreak) (c := c.skipBreak) hmore
          (by rw [Cursor.skipBreak_eq hrest]; rfl)
        refine ⟨g', ?_, ?_⟩
        · rw [if_neg (by decide), if_pos (by decide), hg]
          rfl
        · intro _
          refine hb (.inl ?_)
          unfold Gap.lineBreak
          split
          · assumption
          · rfl

namespace Lexer

variable {s : Lexer} {c : Char} {rest : List Char}

/-- What is passed on the way to the next token, by the next character. -/
theorem skipToToken_cons (hrest : s.cursor.rest = c :: rest) :
    s.skipToToken =
      if c = '\t' && !s.indents.isEmpty && s.cursor.fresh && s.column < s.indent then
        match s.cursor.skipWhite.skipBlanks true { tab := true } with
        | some (_, cursor) => if endsLine cursor.next? then skipToToken { s with cursor } else none
        | none => none
      else if isWhite c then skipToToken { s with cursor := s.cursor.skipWhite }
      else if isBreak c then
        skipToToken { s with cursor := s.cursor.skipBreak, keyAllowed := s.keyAllowed || !s.inFlow }
      else if c = '#' then
        if s.cursor.skipLine.rest.length < s.cursor.rest.length then
          skipToToken { s with cursor := s.cursor.skipLine }
        else none
      else some s := by
  rw [skipToToken]
  split
  · next h => simp [hrest] at h
  · next x tail h =>
    obtain ⟨rfl, rfl⟩ : c = x ∧ rest = tail := by simpa [hrest] using h
    congr 1
    split
    · next hl => rw [hl]
    · next hl => rw [hl]

/-- At the end of the source there is nothing to pass. -/
theorem skipToToken_nil (hrest : s.cursor.rest = []) : s.skipToToken = some s := by
  rw [skipToToken]
  split
  · rfl
  · next h => simp [hrest] at h

/-- At text there is nothing to pass. -/
theorem skipToToken_text (hrest : s.cursor.rest = c :: rest) (hwhite : isWhite c = false)
    (hbreak : isBreak c = false) (hhash : c ≠ '#') : s.skipToToken = some s := by
  have htab : c ≠ '\t' := by
    rintro rfl
    exact absurd hwhite (by decide)
  rw [skipToToken_cons hrest, if_neg (by simp [htab]), if_neg (by simp [hwhite]),
    if_neg (by simp [hbreak]), if_neg hhash]

/-- Between tokens a gap is passed; behind a line feed a key may begin. -/
theorem skipToToken_gap {gap : List Char} (houter : s.outer = []) (hgap : IsGap gap)
    (hrest : s.cursor.rest = gap ++ rest) :
    s.skipToToken = skipToToken
      { s with cursor := s.cursor.pass gap, keyAllowed := s.keyAllowed || gap.contains '\n' } := by
  induction gap generalizing s with
  | nil => simp [Cursor.pass]
  | cons ch gap ih =>
    have hmore := fun d hd => hgap d (List.mem_cons_of_mem _ hd)
    rw [skipToToken_cons hrest]
    rcases hgap ch List.mem_cons_self with rfl | rfl
    · rw [if_neg (by simp), if_pos (by decide)]
      refine (ih (s := { s with cursor := s.cursor.skipWhite }) houter hmore ?_).trans ?_
      · show s.cursor.skipWhite.rest = _
        rw [Cursor.rest_skipWhite, hrest]
        rfl
      · simp [Cursor.pass]
    · rw [if_neg (by simp), if_neg (by decide), if_pos (by decide)]
      refine (ih (s := { s with cursor := s.cursor.skipBreak, keyAllowed := _ }) houter hmore
        ?_).trans ?_
      · show s.cursor.skipBreak.rest = _
        rw [Cursor.skipBreak_eq hrest]
        rfl
      · simp [Cursor.pass, inFlow, houter]

/-- The place of the next token does not depend on the tokens so far. -/
theorem skipToToken_emitted (s : Lexer) (tokens : List Token) (adjacentAt : Nat) :
    skipToToken { s with emitted := tokens, adjacentAt } =
      s.skipToToken.map fun t => { t with emitted := tokens, adjacentAt } := by
  -- no branch looks at the tokens so far, and a branch that goes on hands them on
  fun_induction skipToToken s with
  | case1 s hc => exact skipToToken_nil (s := { s with emitted := tokens, adjacentAt }) hc
  | case2 s c rest hc htab _ cursor hl hends ih =>
    refine (skipToToken_cons (s := { s with emitted := tokens, adjacentAt }) hc).trans ?_
    refine (if_pos htab).trans ?_
    dsimp only
    rw [hl]
    dsimp only
    rw [if_pos hends, ih]
  | case3 s c rest hc htab _ cursor hl hends =>
    refine (skipToToken_cons (s := { s with emitted := tokens, adjacentAt }) hc).trans ?_
    refine (if_pos htab).trans ?_
    dsimp only
    rw [hl]
    dsimp only
    rw [if_neg hends]
    rfl
  | case4 s c rest hc htab hl =>
    refine (skipToToken_cons (s := { s with emitted := tokens, adjacentAt }) hc).trans ?_
    refine (if_pos htab).trans ?_
    dsimp only
    rw [hl]
    rfl
  | case5 s c rest hc htab hwhite ih =>
    refine (skipToToken_cons (s := { s with emitted := tokens, adjacentAt }) hc).trans ?_
    refine (if_neg htab).trans ?_
    rw [if_pos hwhite, ← ih]
  | case6 s c rest hc htab hwhite hbreak ih =>
    refine (skipToToken_cons (s := { s with emitted := tokens, adjacentAt }) hc).trans ?_
    refine (if_neg htab).trans ?_
    rw [if_neg hwhite, if_pos hbreak, ← ih]
    rfl
  | case7 s rest hlt hc htab hwhite hbreak ih =>
    refine (skipToToken_cons (s := { s with emitted := tokens, adjacentAt }) hc).trans ?_
    refine (if_neg htab).trans ?_
    rw [if_neg hwhite, if_neg hbreak, if_pos rfl, if_pos hlt, ← ih]
  | case8 s rest hlt hc htab hwhite hbreak =>
    refine (skipToToken_cons (s := { s with emitted := tokens, adjacentAt }) hc).trans ?_
    refine (if_neg htab).trans ?_
    rw [if_neg hwhite, if_neg hbreak, if_pos rfl, if_neg hlt]
    rfl
  | case9 s c rest hc htab hwhite hbreak hhash =>
    refine (skipToToken_cons (s := { s with emitted := tokens, adjacentAt }) hc).trans ?_
    refine (if_neg htab).trans ?_
    rw [if_neg hwhite, if_neg hbreak, if_neg hhash]
    rfl

/-- At the place of the next token there is nothing to pass. -/
theorem skipToToken_skipToToken {t : Lexer} (h : s.skipToToken = some t) :
    t.skipToToken = some t := by
  fun_induction skipToToken s with
  | case1 s hc =>
    cases h
    exact skipToToken_nil hc
  | case9 s c rest hc htab hwhite hbreak hhash =>
    cases h
    exact skipToToken_text hc (by simpa using hwhite) (by simpa using hbreak) hhash
  | case2 | case5 | case6 | case7 => solve_by_elim
  | case3 | case4 | case8 => cases h

/-! ## Open blocks -/

/-- The indentation inside open blocks, given by their columns, innermost first. -/
def blockIndent : List Nat → Int
  | [] => -1
  | column :: _ => column

/-- The indentations around the innermost of open blocks. -/
def blockIndents : List Nat → List Indentation
  | [] => []
  | _ :: outer => ⟨blockIndent outer, true⟩ :: blockIndents outer

/-- Inside open block mappings and no flow collections; `loose` says whether text is to be indented
more than the innermost block. -/
structure InBlocks (s : Lexer) (blocks : List Nat) (loose : Bool) : Prop where
  outer : s.outer = []
  singlePairs : s.singlePairs = []
  indent : s.indent = blockIndent blocks + (if loose then 1 else 0)
  indents : s.indents =
    (if loose then [⟨blockIndent blocks, false⟩] else []) ++ blockIndents blocks

variable {blocks : List Nat} {loose : Bool}

/-- No flow collection is open. -/
theorem InBlocks.inFlow (h : InBlocks s blocks loose) : s.inFlow = false := by
  rw [Lexer.inFlow, h.outer]
  rfl

/-- Where no key is under way, none is given up. -/
theorem dropStaleKeys_of_none (hpending : s.pending = none) (houter : s.outer = []) :
    s.dropStaleKeys = some s := by
  obtain ⟨cursor, emitted, keyAllowed, pending, outer, indent, indents, adjacentAt, braces,
    singlePairs⟩ := s
  subst hpending houter
  simp [dropStaleKeys, pendingKeys]

/-- A loose indentation is taken back. -/
theorem InBlocks.dropLooseIndents (h : InBlocks s blocks loose) :
    s.dropLooseIndents =
      { s with indent := blockIndent blocks, indents := blockIndents blocks } := by
  have hblocks : ∀ blocks : List Nat,
      (blockIndents blocks).dropWhile (fun i => !i.endsBlock) = blockIndents blocks ∧
        (blockIndents blocks).takeWhile (fun i => !i.endsBlock) = [] := by
    intro blocks
    cases blocks <;> exact ⟨rfl, rfl⟩
  have hi := h.indent
  have hs := h.indents
  obtain ⟨hdrop, htake⟩ := hblocks blocks
  unfold Lexer.dropLooseIndents
  cases loose with
  | true =>
    rw [if_pos rfl, List.singleton_append] at hs
    rw [hs]
    simp [hdrop, htake]
  | false =>
    rw [if_neg (by decide), List.nil_append] at hs
    rw [hs, htake]
    rw [if_neg (by decide), Int.add_zero] at hi
    simp [← hi, ← hs]

/-- Blocks that are indented deeper than a column are closed, each with its token. -/
theorem closeBlocksFrom_append {column : Int} {closed kept : List Nat}
    (hclosed : ∀ b ∈ closed, column < b) (hkept : blockIndent kept ≤ column)
    (hindent : s.indent = blockIndent (closed ++ kept))
    (hindents : s.indents = blockIndents (closed ++ kept)) :
    closeBlocksFrom column s (blockIndents (closed ++ kept)) =
      { s with
        emitted := List.replicate closed.length ⟨.blockEnd, s.mark.position⟩ ++ s.emitted
        indent := blockIndent kept
        indents := blockIndents kept } := by
  induction closed generalizing s with
  | nil =>
    rw [List.nil_append] at hindent hindents ⊢
    rw [← hindent, ← hindents]
    cases hi : s.indents with
    | nil =>
      rw [closeBlocksFrom, ← hi]
      rfl
    | cons i outer =>
      rw [closeBlocksFrom, if_neg (by omega), ← hi]
      rfl
  | cons b closed ih =>
    have hb := hclosed b List.mem_cons_self
    rw [List.cons_append, blockIndents, closeBlocksFrom]
    rw [List.cons_append, blockIndent] at hindent
    rw [if_pos (by omega)]
    dsimp only
    rw [if_pos rfl, ih (fun d hd => hclosed d (List.mem_cons_of_mem _ hd)) rfl rfl]
    simp [emit, Lexer.mark, List.replicate_succ']

/-- At the column of an open block the blocks inside it are closed. -/
theorem InBlocks.closeBlocks {column : Int} {closed kept : List Nat}
    (h : InBlocks s (closed ++ kept) loose) (hclosed : ∀ b ∈ closed, column < b)
    (hkept : blockIndent kept ≤ column) (hcolumn : column ≤ blockIndent (closed ++ kept)) :
    s.closeBlocks column =
      { s with
        emitted := List.replicate closed.length ⟨.blockEnd, s.mark.position⟩ ++ s.emitted
        indent := blockIndent kept
        indents := blockIndents kept } := by
  have hi := h.indent
  have hs := h.indents
  rw [Lexer.closeBlocks, h.inFlow, if_neg (by decide)]
  cases loose with
  | false =>
    rw [if_neg (by decide), Int.add_zero] at hi
    rw [if_neg (by decide), List.nil_append] at hs
    rw [hs, closeBlocksFrom_append hclosed hkept hi hs]
  | true =>
    rw [if_pos rfl] at hi
    rw [if_pos rfl, List.singleton_append] at hs
    rw [hs, closeBlocksFrom, if_pos (by omega)]
    dsimp only
    rw [if_neg (by decide), closeBlocksFrom_append hclosed hkept rfl rfl]
    rfl

/-- At a column of at least the indentation no block is closed. -/
theorem InBlocks.closeBlocks_of_le {column : Int} (h : InBlocks s blocks loose)
    (hcolumn : s.indent ≤ column) : s.closeBlocks column = s := by
  rw [Lexer.closeBlocks, h.inFlow, if_neg (by decide)]
  cases hs : s.indents with
  | nil => rfl
  | cons i outer => rw [closeBlocksFrom, if_neg (by omega)]

/-- Whether what is at a column belongs to the innermost block that stays open, or lies deeper than
all blocks, of which then none is closed. -/
def Fits (k : Nat) (closed kept : List Nat) : Prop :=
  (∀ b ∈ closed, k < b) ∧ (kept.head? = some k ∨ closed = [] ∧ blockIndent kept < k)

/-- Where a line fits, the blocks inside its own are closed, each with its token; only where it
opens a block is there loose indentation. -/
theorem InBlocks.closeBlocks_of_fits {k : Nat} {closed kept : List Nat}
    (h : InBlocks s (closed ++ kept) loose) (hfits : Fits k closed kept) :
    ∃ t loose', s.closeBlocks k = t ∧ InBlocks t kept loose' ∧ t.cursor = s.cursor ∧
      t.keyAllowed = s.keyAllowed ∧ t.pending = s.pending ∧
      t.emitted = List.replicate closed.length ⟨.blockEnd, s.mark.position⟩ ++ s.emitted ∧
      (loose' = true → blockIndent kept < k) ∧ blockIndent kept ≤ k := by
  -- a line at the column of an open block closes those inside it, and a deeper line closes none
  obtain ⟨hclosed, hkept | ⟨rfl, hdeeper⟩⟩ := hfits
  · obtain ⟨outer, rfl⟩ : ∃ outer, kept = k :: outer := by
      cases kept with
      | nil => cases hkept
      | cons b outer =>
        cases hkept
        exact ⟨outer, rfl⟩
    have hclosed' : ∀ b ∈ closed, (k : Int) < b := fun b hb => Int.ofNat_lt.mpr (hclosed b hb)
    have hkept' : blockIndent (k :: outer) ≤ (k : Int) := Int.le_refl _
    have hcolumn : (k : Int) ≤ blockIndent (closed ++ k :: outer) := by
      cases closed with
      | nil => exact Int.le_refl _
      | cons b closed => exact Int.le_of_lt (hclosed' b List.mem_cons_self)
    exact ⟨_, false, h.closeBlocks hclosed' hkept' hcolumn,
      ⟨h.outer, h.singlePairs, (Int.add_zero _).symm, rfl⟩, rfl, rfl, rfl, rfl, by simp, hkept'⟩
  · have hle : s.indent ≤ k := by
      rw [h.indent, List.nil_append]
      cases loose
      · rw [if_neg (by decide)]
        omega
      · rw [if_pos rfl]
        omega
    exact ⟨s, loose, h.closeBlocks_of_le hle, h, rfl, rfl, rfl, rfl, fun _ => hdeeper,
      Int.le_of_lt hdeeper⟩

/-! ## Steps -/

/-- The next token, at its place. -/
def stepAt (s : Lexer) : Option Step := do
  let s ← s.dropStaleKeys
  let s := s.closeBlocks s.column
  match s.cursor.rest with
  | [] => s.readStreamEnd.map .done
  | c :: rest =>
    let margin := s.cursor.column = 0
    if margin && c = '%' then s.readDirective.map .more
    else if margin && s.cursor.startsTriple '-' then s.readDocumentStart.map .more
    else if margin && s.cursor.startsTriple '.' then s.readDocumentEnd.map .more
    else if s.column < s.indent then none
    else (s.readContent c rest.head?).map .more

/-- A step goes to the place of the next token and reads it. -/
theorem step_eq (s : Lexer) : s.step = s.skipToToken.bind stepAt := rfl

/-- Between tokens only the place changes, and whether a key may begin. Blanks, line breaks and
comments are passed, so that no marker comes next. -/
theorem skipToToken_eq_some {t : Lexer} (h : s.skipToToken = some t) :
    t = { s with cursor := t.cursor, keyAllowed := t.keyAllowed } ∧ s.cursor.Passes t.cursor ∧
      t.cursor.next? ≠ some '#' := by
  fun_induction skipToToken s with
  | case1 s hc =>
    cases h
    exact ⟨rfl, .refl _, by simp [Cursor.next?, hc]⟩
  | case2 s c rest hc htab _ cursor hl _ ih =>
    have htab : c = '\t' := by
      simp only [Bool.and_eq_true, decide_eq_true_eq] at htab
      exact htab.1.1.1
    obtain ⟨ht, hpassed, hnext⟩ := ih h
    exact ⟨ht, (Cursor.passes_skipWhite hc (htab ▸ rfl)).trans
      ((Cursor.passes_skipBlanks hl).trans hpassed), hnext⟩
  | case5 s c rest hc _ hwhite ih =>
    obtain ⟨ht, hpassed, hnext⟩ := ih h
    exact ⟨ht, (Cursor.passes_skipWhite hc hwhite).trans hpassed, hnext⟩
  | case6 s c rest hc _ _ hbreak ih =>
    obtain ⟨ht, hpassed, hnext⟩ := ih h
    exact ⟨ht, (Cursor.passes_skipBreak hc hbreak).trans hpassed, hnext⟩
  | case7 s rest hlt hc _ _ _ ih =>
    obtain ⟨ht, hpassed, hnext⟩ := ih h
    exact ⟨ht, (Cursor.passes_skipLine _).trans hpassed, hnext⟩
  | case9 s c rest hc _ _ _ hmarker =>
    cases h
    exact ⟨rfl, .refl _, by rw [Cursor.next?, hc]; simpa using hmarker⟩
  | case3 | case4 | case8 => cases h

/-- The content of a line inside blocks is read by its first character. -/
theorem stepAt_content {t : Lexer}
    (hstale : s.dropStaleKeys = some s) (hclose : s.closeBlocks s.column = t)
    (hrest : t.cursor.rest = c :: rest) (hdocument : t.cursor.atDocumentIndicator = false)
    (hpercent : c ≠ '%') (hindent : t.indent ≤ t.column) :
    s.stepAt = (t.readContent c rest.head?).map .more := by
  rw [stepAt, hstale]
  simp only [bind, Option.bind, hclose, hrest]
  have hmargin : (decide (t.cursor.column = 0) && t.cursor.startsTriple '-') = false ∧
      (decide (t.cursor.column = 0) && t.cursor.startsTriple '.') = false := by
    rw [Cursor.atDocumentIndicator, Bool.and_or_distrib_left, Bool.or_eq_false_iff] at hdocument
    exact hdocument
  rw [if_neg (by simp [hpercent]), if_neg (by simp [hmargin.1]), if_neg (by simp [hmargin.2]),
    if_neg (by omega)]

/-- At the end of the source the blocks are closed. -/
theorem stepAt_end {t : Lexer} (hstale : s.dropStaleKeys = some s)
    (hclose : s.closeBlocks s.column = t) (hrest : t.cursor.rest = []) :
    s.stepAt = t.readStreamEnd.map .done := by
  rw [stepAt, hstale]
  simp only [bind, Option.bind, hclose, hrest]

/-- A step from a place between tokens is that of the next token. -/
theorem run_eq_run {t next : Lexer} (hstale : s.dropStaleKeys = some s)
    (hskip : s.skipToToken = some t) (hstep : t.stepAt = some (.more next))
    (hlength : next.cursor.rest.length < t.cursor.rest.length) : s.run = next.run := by
  have hle := (skipToToken_eq_some hskip).2.1.crosses.suffix.length_le
  rw [run, hstale]
  dsimp only
  rw [step_eq, hskip, Option.bind_some, hstep]
  dsimp only
  rw [if_pos (by omega)]

/-- Where the source ends, the tokens are all there. -/
theorem run_eq_of_done {t : Lexer} {tokens : List Token} (hstale : s.dropStaleKeys = some s)
    (hskip : s.skipToToken = some t) (hstep : t.stepAt = some (.done tokens)) : s.run = tokens := by
  rw [run, hstale]
  dsimp only
  rw [step_eq, hskip, Option.bind_some, hstep]

end Lexer

end Yaml

end QueryBook
