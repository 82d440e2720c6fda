import QueryBook.Proofs.KeyLines

/-!
# Lexing the lines of a document

Between two lines of a document the lexer may have passed any part of the blanks and comments that
lie there. `Awaits` says that nothing but those separates it from the start of the next line, and
the lemmas take it from one line to the next: over empty lines and comments, over a key to its
value, and over a value that ends with its line.
-/

namespace QueryBook.Yaml

open Canonical
open Text (unlines)

/-! ## Lines without text -/

/-- Whether a line is empty or a comment. -/
def IsVoid (line : List Char) : Prop :=
  line = [] ∨ ∃ k text, line = List.replicate k ' ' ++ '#' :: text ∧ ∀ c ∈ text, isBreak c = false

/-- Whether some lines are empty and comments up to one with text, if there is one, and none before
it and not its text either is indented by more than `k` spaces. -/
inductive Outdented (k : Nat) : List (List Char) → Prop where
  | nil : Outdented k []
  | blank {ls} (h : Outdented k ls) : Outdented k ([] :: ls)
  | comment {j text ls} (hj : j ≤ k) (htext : ∀ c ∈ text, isBreak c = false)
      (h : Outdented k ls) : Outdented k ((List.replicate j ' ' ++ '#' :: text) :: ls)
  | text {j x more ls} (hj : j ≤ k) (hwhite : isWhite x = false) (hbreak : isBreak x = false)
      (hhash : x ≠ '#') : Outdented k ((List.replicate j ' ' ++ x :: more) :: ls)

theorem Outdented.mono {k k' : Nat} {ls : List (List Char)} (h : Outdented k ls) (hk : k ≤ k') :
    Outdented k' ls := by
  induction h with
  | nil => exact .nil
  | blank _ ih => exact .blank ih
  | comment hj htext _ ih => exact .comment (Nat.le_trans hj hk) htext ih
  | text hj hwhite hbreak hhash => exact .text (Nat.le_trans hj hk) hwhite hbreak hhash

/-- Empty lines in front do not matter. -/
theorem Outdented.blanks {k : Nat} {ls : List (List Char)} (h : Outdented k ls) (n : Nat) :
    Outdented k (List.replicate n [] ++ ls) := by
  induction n with
  | zero => exact h
  | succ n ih => exact .blank ih

/-- The empty lines in front of some lines and the spaces of the next one. -/
def gapBefore : List (List Char) → List Char
  | [] => []
  | [] :: ls => '\n' :: gapBefore ls
  | line :: _ => line.takeWhile (· = ' ')

/-- The gap before a line are its spaces. -/
theorem gapBefore_cons {j : Nat} {x : Char} {more : List Char} {ls : List (List Char)}
    (hwhite : isWhite x = false) :
    gapBefore ((List.replicate j ' ' ++ x :: more) :: ls) = List.replicate j ' ' := by
  have hx : x ≠ ' ' := by
    rintro rfl
    cases hwhite
  have htake : (List.replicate j ' ' ++ x :: more).takeWhile (· = ' ') = List.replicate j ' ' := by
    rw [List.takeWhile_append_of_pos, List.takeWhile_cons_of_neg (by simpa using hx), List.append_nil]
    intro c hc
    simpa using List.eq_of_mem_replicate hc
  cases j with
  | zero => exact htake
  | succ j => exact htake

/-- Before outdented text there is a gap, and behind it the column is no deeper. -/
theorem Outdented.gap {k : Nat} {ls : List (List Char)} (h : Outdented k ls) :
    ∃ rest, unlines ls = gapBefore ls ++ rest ∧ IsGap (gapBefore ls) ∧ EndsGap rest ∧
      ∀ c : Cursor, c.column = 0 → (c.pass (gapBefore ls)).column ≤ k := by
  -- On a line with a comment or text the gap are its spaces.
  have line {j : Nat} {x : Char} {more : List Char} {ls : List (List Char)} (hj : j ≤ k)
      (hwhite : isWhite x = false) (hbreak : isBreak x = false) :
      ∃ rest, unlines ((List.replicate j ' ' ++ x :: more) :: ls) = List.replicate j ' ' ++ rest ∧
        IsGap (List.replicate j ' ') ∧ EndsGap rest ∧
        ∀ c : Cursor, c.column = 0 → (c.pass (List.replicate j ' ')).column ≤ k := by
    refine ⟨x :: more ++ '\n' :: unlines ls, by simp, isGap_spaces j, ?_, ?_⟩
    · intro d hd
      cases hd
      exact ⟨hwhite, hbreak⟩
    · intro c hc
      rw [Cursor.pass_spaces]
      show c.column + j ≤ k
      omega
  induction h with
  | nil =>
    refine ⟨[], rfl, ?_, ?_, ?_⟩
    · intro c hc
      cases hc
    · intro c hc
      cases hc
    · intro c hc
      show c.column ≤ k
      omega
  | blank _ ih =>
    obtain ⟨rest, hls, hgap, hend, hcolumn⟩ := ih
    refine ⟨rest, ?_, ?_, hend, ?_⟩
    · rw [Text.unlines_cons, hls]
      rfl
    · intro c hc
      rcases List.mem_cons.mp hc with rfl | hc
      · exact .inr rfl
      · exact hgap c hc
    · intro c _
      exact hcolumn c.skipBreak rfl
  | comment hj =>
    rw [gapBefore_cons (by decide)]
    exact line hj (by decide) (by decide)
  | text hj hwhite hbreak =>
    rw [gapBefore_cons hwhite]
    exact line hj hwhite hbreak

namespace Lexer

variable {s : Lexer} {ls : List (List Char)} {line index k : Nat} {blocks : List Nat}
  {loose : Bool} {tokens : List Token} {text : String} {rest : List Char}

/-! ## Between lines -/

/-- The state at the start of a line. -/
def atLine (s : Lexer) (ls : List (List Char)) (index line : Nat) : Lexer :=
  { s with cursor := ⟨unlines ls, ⟨index, line, 0⟩, true⟩, keyAllowed := true }

/-- Inside blocks, before lines: at most blanks and comments have been passed of them. -/
structure Awaits (s : Lexer) (ls : List (List Char)) (line : Nat) (tokens : List Token)
    (blocks : List Nat) : Prop where
  inBlocks : ∃ loose, InBlocks s blocks loose
  emitted : s.emitted = tokens
  pending : s.pending = none
  skip : ∃ index, s.skipToToken = (s.atLine ls index line).skipToToken

/-- Part of the gap before the next lines may have been passed with the end of the line. -/
theorem awaits_of_pass {gap : List Char} (h : InBlocks s blocks loose)
    (hemitted : s.emitted = tokens) (hpending : s.pending = none) (hallowed : s.keyAllowed = true)
    (hgap : IsGap gap) (hls : unlines ls = gap ++ rest)
    (hcursor : s.cursor = Cursor.pass ⟨unlines ls, ⟨index, line, 0⟩, true⟩ gap) :
    s.Awaits ls line tokens blocks := by
  refine ⟨⟨loose, h⟩, hemitted, hpending, index, ?_⟩
  rw [skipToToken_gap (s := s.atLine ls index line) h.outer hgap hls]
  congr 1
  obtain ⟨cursor, emitted, keyAllowed, pending, outer, indent, indents, adjacentAt, braces,
    singlePairs⟩ := s
  subst hcursor hallowed
  simp [atLine]

/-- The gap and comments before the next lines may have been passed by a look at what follows. -/
theorem awaits_of_skip {t : Lexer} (h : s.Awaits ls line tokens blocks)
    (hskip : s.skipToToken = some t) (scalar : Token) (adjacentAt : Nat) :
    Awaits { t with emitted := scalar :: tokens, adjacentAt } ls line (scalar :: tokens) blocks := by
  obtain ⟨⟨loose, hin⟩, hemitted, hpending, index, hindex⟩ := h
  obtain ⟨ht, -⟩ := skipToToken_eq_some hskip
  refine ⟨⟨loose, ?_⟩, rfl, ?_, index, ?_⟩
  · rw [ht]
    exact ⟨hin.outer, hin.singlePairs, hin.indent, hin.indents⟩
  · rw [ht]
    exact hpending
  · have hs : atLine { t with emitted := scalar :: tokens, adjacentAt } ls index line =
        { s.atLine ls index line with emitted := scalar :: tokens, adjacentAt } := by
      rw [ht]
      rfl
    rw [hs, skipToToken_emitted t, skipToToken_emitted (s.atLine ls index line), ← hindex, hskip,
      skipToToken_skipToToken hskip]

/-- A comment is passed. -/
theorem skipToToken_comment {text : List Char} (hrest : s.cursor.rest = '#' :: text ++ '\n' :: rest)
    (htext : ∀ c ∈ text, isBreak c = false) :
    s.skipToToken = skipToToken { s with cursor := s.cursor.skip (text.length + 1) } := by
  have htake : ('#' :: text ++ '\n' :: rest).takeWhile (fun ch => !isBreak ch) = '#' :: text := by
    rw [List.takeWhile_append_of_pos]
    · simp [isBreak]
    · intro c hc
      rcases List.mem_cons.mp hc with rfl | hc
      · rfl
      · simp [htext c hc]
  have hline : s.cursor.skipLine = s.cursor.skip (text.length + 1) := by
    unfold Cursor.skipLine Cursor.skipWhile
    rw [hrest, htake]
    rfl
  rw [skipToToken_cons hrest, if_neg (by simp), if_neg (by decide), if_neg (by decide), if_pos rfl,
    hline, if_pos]
  rw [Cursor.rest_skip, List.length_drop, hrest, List.length_append, List.length_cons]
  omega

/-- The end of a line is passed. -/
theorem skipToToken_break (houter : s.outer = []) (hrest : s.cursor.rest = '\n' :: unlines ls) :
    s.skipToToken = (s.atLine ls (s.cursor.mark.index + 1) (s.cursor.line + 1)).skipToToken := by
  rw [skipToToken_gap houter isGap_break hrest]
  simp [atLine, Cursor.pass, Cursor.skipBreak_eq hrest]

/-- At the end of a line the next ones are awaited. -/
theorem awaits_of_break (h : InBlocks s blocks loose) (hemitted : s.emitted = tokens)
    (hpending : s.pending = none) (hrest : s.cursor.rest = '\n' :: unlines ls) :
    s.Awaits ls (s.cursor.line + 1) tokens blocks :=
  ⟨⟨loose, h⟩, hemitted, hpending, _, skipToToken_break h.outer hrest⟩

/-- An empty line or a comment is passed. -/
theorem Awaits.skipLine {l : List Char} (h : s.Awaits (l :: ls) line tokens blocks)
    (hl : IsVoid l) : s.Awaits ls (line + 1) tokens blocks := by
  obtain ⟨⟨loose, hin⟩, hemitted, hpending, index, hindex⟩ := h
  rcases hl with rfl | ⟨k, text, rfl, htext⟩
  · refine ⟨⟨loose, hin⟩, hemitted, hpending, index + 1, hindex.trans ?_⟩
    exact skipToToken_break (s := s.atLine ([] :: ls) index line) hin.outer rfl
  · refine ⟨⟨loose, hin⟩, hemitted, hpending, index + k + (text.length + 1) + 1, hindex.trans ?_⟩
    have hrest : (s.atLine ((List.replicate k ' ' ++ '#' :: text) :: ls) index line).cursor.rest =
        List.replicate k ' ' ++ ('#' :: text ++ '\n' :: unlines ls) := by
      simp [atLine]
    have hspaces := skipToToken_gap (s := s.atLine _ index line) hin.outer (isGap_spaces k) hrest
    rw [Cursor.pass_spaces] at hspaces
    rw [hspaces]
    refine (skipToToken_comment (?_ : _ = '#' :: text ++ '\n' :: unlines ls) htext).trans ?_
    · simp [hrest]
    · refine (skipToToken_break ?_ (?_ : _ = '\n' :: unlines ls)).trans ?_
      · exact hin.outer
      · simp [hrest]
      · rfl

/-- Empty lines and comments are passed. -/
theorem Awaits.skipLines {above : List (List Char)} (h : s.Awaits (above ++ ls) line tokens blocks)
    (habove : ∀ l ∈ above, IsVoid l) : s.Awaits ls (line + above.length) tokens blocks := by
  induction above generalizing line with
  | nil => exact h
  | cons l above ih =>
    have hnext := h.skipLine (habove l List.mem_cons_self)
    have hrest := ih hnext fun l' hl' => habove l' (List.mem_cons_of_mem _ hl')
    rw [List.length_cons, Nat.add_comm above.length, ← Nat.add_assoc]
    exact hrest

/-- Empty lines are passed. -/
theorem Awaits.skipBlanks {b : Nat} (h : s.Awaits (List.replicate b [] ++ ls) line tokens blocks) :
    s.Awaits ls (line + b) tokens blocks := by
  have hlines := h.skipLines fun l hl => .inl (List.eq_of_mem_replicate hl)
  rw [List.length_replicate] at hlines
  exact hlines

/-- The text of a line is the next token. -/
theorem Awaits.content {x : Char} {more : List Char}
    (h : s.Awaits ((List.replicate k ' ' ++ x :: more) :: ls) line tokens blocks)
    (hwhite : isWhite x = false) (hbreak : isBreak x = false) (hhash : x ≠ '#') :
    ∃ index, s.skipToToken = some { s with
      cursor := ⟨x :: more ++ '\n' :: unlines ls, ⟨index, line, k⟩, true⟩, keyAllowed := true } := by
  obtain ⟨⟨loose, hin⟩, -, -, index, hindex⟩ := h
  have hrest : (s.atLine ((List.replicate k ' ' ++ x :: more) :: ls) index line).cursor.rest =
      List.replicate k ' ' ++ (x :: more ++ '\n' :: unlines ls) := by
    simp [atLine]
  have hspaces := skipToToken_gap (s := s.atLine _ index line) hin.outer (isGap_spaces k) hrest
  rw [Cursor.pass_spaces] at hspaces
  refine ⟨index + k, ?_⟩
  rw [hindex, hspaces]
  refine (skipToToken_text (?_ : _ = x :: (more ++ '\n' :: unlines ls)) hwhite hbreak hhash).trans ?_
  · simp [hrest]
  · simp [atLine, Cursor.move]

/-- Behind the last line the source ends. -/
theorem Awaits.end (h : s.Awaits [] line tokens blocks) : ∃ index,
    s.skipToToken = some { s with cursor := ⟨[], ⟨index, line, 0⟩, true⟩, keyAllowed := true } := by
  obtain ⟨-, -, -, index, hindex⟩ := h
  exact ⟨index, hindex.trans (skipToToken_nil (s := s.atLine [] index line) rfl)⟩

/-- Before outdented lines there is a next token, or the end of the source. -/
theorem Awaits.exists_skip (h : s.Awaits ls line tokens blocks) (hls : Outdented k ls) :
    ∃ t, s.skipToToken = some t := by
  induction hls generalizing line with
  | nil =>
    obtain ⟨index, hskip⟩ := h.end
    exact ⟨_, hskip⟩
  | blank _ ih => exact ih (h.skipLine (.inl rfl))
  | comment _ htext _ ih => exact ih (h.skipLine (.inr ⟨_, _, rfl, htext⟩))
  | text _ hwhite hbreak hhash =>
    obtain ⟨index, hskip⟩ := h.content hwhite hbreak hhash
    exact ⟨_, hskip⟩

/-- Behind the last line the tokens are all there once the blocks are closed. -/
theorem Awaits.run_eq {closed : List Nat} (h : s.Awaits [] line tokens (closed ++ [0]))
    (hclosed : ∀ b ∈ closed, 0 < b) :
    s.run = tokens.reverse ++
      (List.replicate (closed.length + 1) ⟨.blockEnd, ⟨line, 1⟩⟩ ++ [⟨.streamEnd, ⟨line, 1⟩⟩]) := by
  obtain ⟨index, hskip⟩ := h.end
  obtain ⟨⟨loose, hin⟩, hemitted, hpending, -⟩ := h
  have hstale := dropStaleKeys_of_none hpending hin.outer
  refine run_eq_of_done hstale hskip ?_
  have hin' : InBlocks { s with cursor := ⟨[], ⟨index, line, 0⟩, true⟩, keyAllowed := true }
      (closed ++ [0]) loose := ⟨hin.outer, hin.singlePairs, hin.indent, hin.indents⟩
  -- the end stands in the first column, so all blocks but the outermost are closed before it
  obtain ⟨u, loose', hclose, hu, hucursor, -, hupending, huemitted, hloose, -⟩ :=
    hin'.closeBlocks_of_fits (k := 0) ⟨hclosed, .inl rfl⟩
  obtain rfl : loose' = false := by
    cases loose' with
    | false => rfl
    | true => exact absurd (hloose rfl) (Int.lt_irrefl _)
  have hpending' : u.pending = none := hupending.trans hpending
  have hkeys : u.pendingKeys = [] := by
    rw [pendingKeys, hpending', hu.outer]
    rfl
  have hindents : u.indents = [⟨-1, true⟩] := hu.indents
  have hposition : u.mark = ⟨index, line, 0⟩ := congrArg Cursor.mark hucursor
  have hend : u.readStreamEnd = some (tokens.reverse ++
      (List.replicate (closed.length + 1) ⟨.blockEnd, ⟨line, 1⟩⟩ ++
        [⟨.streamEnd, ⟨line, 1⟩⟩])) := by
    have huemitted' : u.emitted =
        List.replicate closed.length ⟨.blockEnd, ⟨line, 1⟩⟩ ++ s.emitted := huemitted
    unfold readStreamEnd
    rw [hkeys, hu.inFlow, hindents, hposition]
    simp [emit, Mark.position, huemitted', hemitted, List.replicate_succ']
  have hstale' : dropStaleKeys _ = some _ := dropStaleKeys_of_none (s := { s with
    cursor := ⟨[], ⟨index, line, 0⟩, true⟩, keyAllowed := true }) hpending hin.outer
  rw [stepAt_end hstale' hclose (congrArg Cursor.rest hucursor), hend]
  rfl

/-! ## Keys -/

/-- The `:` behind a key is read. -/
theorem AtColon.run_eq {key : PendingKey} {scalar : Token} {length : Nat}
    (h : AtColon s key scalar tokens blocks loose length rest) (hlength : length ≤ 1024)
    (hpos : 0 < length) (hcolumn : blockIndent blocks ≤ key.mark.column)
    (hloose : loose = true → blockIndent blocks < key.mark.column)
    (hends : endsWord rest.head? = true) (htab : rest.head? ≠ some '\t') :
    ∃ s', s.run = s'.run ∧
      AwaitsValue s'
        (⟨.value, s.mark.position⟩ :: scalar :: ⟨.key, key.mark.position⟩ ::
          (opening blocks key.mark.column s.mark.position ++ tokens))
        (blocksWith blocks key.mark.column) s.cursor.line (s.cursor.column + 1) rest := by
  have hmark : s.cursor.column = key.mark.column + length := congrArg Mark.column h.mark
  -- the `:` stands behind its key, which is indented enough in either case
  have hindent : s.indent ≤ s.column := by
    rw [h.indent, column, hmark]
    cases loose with
    | false =>
      rw [if_neg (by decide)]
      omega
    | true =>
      have := hloose rfl
      rw [if_pos rfl]
      omega
  have hskip := skipToToken_text h.rest (by decide) (by decide) (by decide)
  have hstale := h.dropStaleKeys hlength
  have hdocument : s.cursor.atDocumentIndicator = false := by
    rw [Cursor.atDocumentIndicator, hmark, decide_eq_false (by omega)]
    rfl
  obtain ⟨s', hvalue, hs'⟩ := readValue_eq h hcolumn hloose htab
  have hread : s.readContent ':' rest.head? = some s' := by
    rw [readContent]
    simp only [hends, if_pos]
    exact hvalue
  have hstep := stepAt_content hstale (h.closeBlocks_of_le hindent) h.rest hdocument (by decide)
    hindent
  rw [hread] at hstep
  refine ⟨s', run_eq_run hstale hskip hstep ?_, hs'⟩
  rw [hs'.rest, h.rest, List.length_cons]
  omega

/-- A written key that a `:` follows is read in one step, before which the blocks inside its own
are closed. -/
theorem InBlocks.stepAt_key {closed kept : List Nat} {position : Mark}
    (hin : InBlocks s (closed ++ kept) loose) (hallowed : s.keyAllowed = true)
    (hpending : s.pending = none)
    (hcursor : s.cursor = ⟨(Canonical.scalar text).toList ++ ':' :: rest, position, true⟩)
    (hfits : Fits position.column closed kept) (hends : endsWord rest.head? = true)
    (hdocument : position.column = 0 → endsDocument text = false) :
    ∃ key s' loose', s.stepAt = some (.more s') ∧ key.mark = position ∧
      AtColon s' key (scalarToken text position.position)
        (List.replicate closed.length ⟨.blockEnd, position.position⟩ ++ s.emitted) kept loose'
        (Canonical.scalar text).toList.length rest ∧
      blockIndent kept ≤ position.column ∧
      (loose' = true → blockIndent kept < position.column) := by
  have hmark : s.mark = position := congrArg Cursor.mark hcursor
  obtain ⟨u, loose', hclose, hu, hucursor, huallowed, -, huemitted, hloose, hindent⟩ :=
    hin.closeBlocks_of_fits hfits
  rw [hcursor] at hucursor
  have humark : u.mark = position := congrArg Cursor.mark hucursor
  have hucolumn : u.column = position.column := congrArg (fun c => (c.mark.column : Int)) hucursor
  have hurest : u.cursor.rest = (Canonical.scalar text).toList ++ ':' :: rest :=
    congrArg Cursor.rest hucursor
  have hudocument : u.cursor.atDocumentIndicator = false := by
    refine atDocumentIndicator_key hurest ?_
    rw [hucursor]
    exact hdocument
  have hkey : blockIndent kept + (if loose' then 1 else 0) ≤ (u.column : Int) := by
    rw [hucolumn]
    cases loose' with
    | false => simpa using hindent
    | true =>
      have := hloose rfl
      rw [if_pos rfl]
      omega
  obtain ⟨c, s', loose'', ⟨hc, hread⟩, hloose', hcolon⟩ :=
    readContent_key hu (huallowed.trans hallowed) hends hurest hkey hudocument
  rw [humark, huemitted, hmark] at hcolon
  refine ⟨u.newKey, s', loose'', ?_, humark, hcolon, hindent, fun hl => hloose (hloose' hl)⟩
  -- A written scalar begins with no `%`, so it is not taken for a directive.
  obtain ⟨x, xs, hx, -, -, hstart⟩ := scalar_cons text
  have hcx : c = x := by
    rw [hurest, hx] at hc
    cases hc
    rfl
  have hpercent : c ≠ '%' := by
    rintro rfl
    exact hstart (by rw [← hcx]; decide)
  have hcolumn : s.column = position.column := congrArg (fun c => (c.mark.column : Int)) hcursor
  rw [← hcolumn] at hclose
  rw [hx, ← hcx] at hurest
  rw [stepAt_content (dropStaleKeys_of_none hpending hin.outer) hclose hurest hudocument hpercent
    (by rw [hu.indent]; exact hkey), hread]
  rfl

/-- A key and its `:` are read; the blocks inside that of the key are closed before it, and its
block is opened if it is not yet. -/
theorem Awaits.key {closed kept : List Nat} {value : List Char}
    (h : s.Awaits ((List.replicate k ' ' ++ ((Canonical.scalar text).toList ++ ':' :: value)) :: ls)
      line tokens (closed ++ kept))
    (hfits : Fits k closed kept) (hlength : (Canonical.scalar text).toList.length ≤ 1024)
    (hdocument : k = 0 → endsDocument text = false) (hvalue : ∀ c ∈ value.head?, c = ' ') :
    ∃ s', s.run = s'.run ∧ AwaitsValue s'
      (⟨.value, ⟨line, k + (Canonical.scalar text).toList.length + 1⟩⟩ ::
        scalarToken text ⟨line, k + 1⟩ :: ⟨.key, ⟨line, k + 1⟩⟩ ::
        (opening kept k ⟨line, k + (Canonical.scalar text).toList.length + 1⟩ ++
          (List.replicate closed.length ⟨.blockEnd, ⟨line, k + 1⟩⟩ ++ tokens)))
      (blocksWith kept k) line (k + (Canonical.scalar text).toList.length + 1)
      (value ++ '\n' :: unlines ls) := by
  obtain ⟨x, xs, hx, hwhite, hbreak, hstart⟩ := scalar_cons text
  have hline : List.replicate k ' ' ++ ((Canonical.scalar text).toList ++ ':' :: value) =
      List.replicate k ' ' ++ x :: (xs ++ ':' :: value) := by
    rw [hx]
    rfl
  rw [hline] at h
  obtain ⟨index, hskip⟩ := h.content hwhite hbreak (fun hh => hstart (by simp [hh]))
  obtain ⟨⟨loose, hin⟩, hemitted, hpending, -⟩ := h
  have hends : endsWord (value ++ '\n' :: unlines ls).head? = true ∧
      (value ++ '\n' :: unlines ls).head? ≠ some '\t' := by
    cases value with
    | nil => exact ⟨rfl, by simp⟩
    | cons c value =>
      rw [hvalue c rfl]
      exact ⟨rfl, by simp⟩
  have hcursor : (⟨x :: (xs ++ ':' :: value) ++ '\n' :: unlines ls, ⟨index, line, k⟩, true⟩ :
      Cursor) = ⟨(Canonical.scalar text).toList ++ ':' :: (value ++ '\n' :: unlines ls),
        ⟨index, line, k⟩, true⟩ := by
    rw [hx]
    simp
  rw [hcursor] at hskip
  -- the key is read first, which closes the blocks inside its own, and then the `:` behind it
  obtain ⟨key, s', loose', hstep, hkey, hcolon, hindent, hloose⟩ :=
    InBlocks.stepAt_key (s := { s with
      cursor := ⟨_, ⟨index, line, k⟩, true⟩
      keyAllowed := true }) ⟨hin.outer, hin.singlePairs, hin.indent, hin.indents⟩ rfl hpending rfl
      hfits hends.1 hdocument
  have hmark : s'.cursor.mark = ⟨index + (Canonical.scalar text).toList.length, line,
      k + (Canonical.scalar text).toList.length⟩ := by
    have := hcolon.mark
    rw [hkey] at this
    exact this
  have hpos : 0 < (Canonical.scalar text).toList.length := by
    rw [hx]
    exact Nat.succ_pos _
  obtain ⟨s'', hrun, hs''⟩ := hcolon.run_eq hlength hpos
    (by rw [hkey]; exact hindent) (by rw [hkey]; exact hloose) hends.1 hends.2
  refine ⟨s'', ?_, ?_⟩
  · refine (run_eq_run (dropStaleKeys_of_none hpending hin.outer) hskip hstep ?_).trans hrun
    rw [hcolon.rest, List.length_append, List.length_cons]
    omega
  · have hsmark : s'.mark = _ := hmark
    rw [hsmark, hkey, Cursor.line, Cursor.column, hmark] at hs''
    rw [← hemitted]
    exact hs''

end Lexer

end QueryBook.Yaml
