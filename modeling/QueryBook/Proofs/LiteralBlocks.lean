import QueryBook.Proofs.DocumentLines

/-!
# Reading literal blocks

A text with line breaks is written as a literal block: a header, and its lines indented two columns
deeper than the key. The block is read back as the text; only where it ends with two line breaks or
more do the empty lines that follow it count as part of it.
-/

namespace QueryBook

open Text (unlines)

/-! ## The written block -/

namespace Sql

/-- A text without the line breaks at its end. -/
def body (text : List Char) : List Char := Text.dropEndWhile (· = '\n') text

/-- The number of line breaks at the end of a text. -/
def trailing (text : List Char) : Nat := text.length - (body text).length

/-- The header of the block of a text. -/
def header (text : List Char) : List Char :=
  '|' :: (if (body text).head? = some ' ' || (body text).head? = some '\n' then ['2'] else []) ++
    (if trailing text = 0 then ['-'] else if trailing text = 1 then [] else ['+'])

/-- A line of a block; an empty one is not indented. -/
def blockLine (indent : Nat) (line : List Char) : List Char :=
  if line.isEmpty then [] else List.replicate indent ' ' ++ line

/-- The lines of a text up to the last one that is not empty. -/
def bodyLines (text : List Char) : List (List Char) := Text.splitOnChar '\n' (body text)

/-- The lines of the block of a text. -/
def blockLines (text : List Char) (indent : Nat) : List (List Char) :=
  (bodyLines text).map (blockLine indent) ++ List.replicate (trailing text - 1) []

/-- A block is its header and its lines. -/
theorem literalBlock_eq (text : List Char) (indent : Nat) (rest : List Char) :
    literalBlock text indent ++ '\n' :: rest =
      header text ++ '\n' :: (unlines (blockLines text indent) ++ rest) := by
  have hlines (ls : List (List Char)) (rest : List Char) :
      ls.flatMap (fun l => '\n' :: blockLine indent l) ++ '\n' :: rest =
        '\n' :: (unlines (ls.map (blockLine indent)) ++ rest) := by
    induction ls with
    | nil => rfl
    | cons l ls ih => simp [ih]
  have hbreaks (n : Nat) : List.replicate n '\n' ++ '\n' :: rest =
      '\n' :: (unlines (List.replicate n []) ++ rest) := by
    induction n with
    | zero => rfl
    | succ n ih => simp [List.replicate_succ, ih]
  rw [literalBlock]
  show (header text ++ (bodyLines text).flatMap (fun l => '\n' :: blockLine indent l) ++
    List.replicate (trailing text - 1) '\n') ++ '\n' :: rest = _
  rw [List.append_assoc, hbreaks, List.append_assoc, hlines, blockLines, Text.unlines_append,
    List.append_assoc]

theorem body_append (text : List Char) :
    body text ++ List.replicate (trailing text) '\n' = text :=
  Text.dropEndWhile_eq_append_replicate '\n' text

/-- A text that is not blank has more than line breaks. -/
theorem body_ne_nil {text : String} (h : Text.isAllBlank text = false) :
    body text.toList ≠ [] := by
  intro hbody
  have htext := body_append text.toList
  rw [hbody, List.nil_append] at htext
  have hall : text.toList.all Text.isBlank = true := by
    rw [List.all_eq_true, ← htext]
    intro c hc
    rw [List.eq_of_mem_replicate hc]
    decide
  rw [Text.isAllBlank, hall] at h
  cases h

end Sql

namespace Yaml.Block

/-! ## Header -/

/-- The chomping that the header of a text asks for. -/
def chompingOf (text : List Char) : Chomping :=
  if Sql.trailing text = 0 then .strip else if Sql.trailing text = 1 then .clip else .keep

/-- The indentation that the header of a text gives. -/
def incrementOf (text : List Char) : Option Nat :=
  if (Sql.body text).head? = some ' ' || (Sql.body text).head? = some '\n' then some 2 else none

/-- At the end of a line there is nothing to pass. -/
theorem skipToLineEnd_break {c : Cursor} {rest : List Char} (hrest : c.rest = '\n' :: rest) :
    c.skipToLineEnd = some c := by
  rw [Cursor.skipToLineEnd, Quoted.skipBlanks_of_follows (.inr rfl) hrest]
  simp [Cursor.next?, hrest, endsLine, isBreak]

/-- The header of a text is read. -/
theorem readHeader_header {text rest : List Char} {c : Cursor}
    (hrest : c.rest = Sql.header text ++ '\n' :: rest) :
    readHeader (c.skip 1) =
      some (⟨chompingOf text, incrementOf text⟩, c.skip (Sql.header text).length) := by
  have hend {n : Nat} (h : c.rest.drop n = '\n' :: rest) :
      (c.skip n).skipToLineEnd = some (c.skip n) := skipToLineEnd_break h
  unfold Sql.header at hrest ⊢
  unfold incrementOf chompingOf
  split_ifs at hrest ⊢
  all_goals
    have := hend (n := 1)
    have := hend (n := 2)
    have := hend (n := 3)
    simp_all [readHeader, readChomping, readIncrement, Cursor.next?, Chomping.ofChar?,
      Cursor.skip_skip]

/-! ## Indentation -/

variable {c : Cursor} {rest : List Char} {n m k : Nat}

/-- What is passed on the way to the text of a line, by the next character. -/
theorem skipIndent_cons {x : Char} (hrest : c.rest = x :: rest) :
    skipIndent n m c =
      if x = ' ' && c.column < n then skipIndent n m c.skipWhite
      else if isBreak x then skipIndent n (m + 1) c.skipBreak
      else (m, c) := by
  rw [skipIndent]
  split
  · next h => simp [hrest] at h
  · next y tail h =>
    obtain ⟨rfl, rfl⟩ : x = y ∧ rest = tail := by simpa [hrest] using h
    rfl

/-- At the end of the source there is nothing to pass. -/
theorem skipIndent_nil (hrest : c.rest = []) : skipIndent n m c = (m, c) := by
  rw [skipIndent]
  split
  · rfl
  · next h => simp [hrest] at h

/-- An empty line is passed and counted. -/
theorem skipIndent_break (hrest : c.rest = '\n' :: rest) :
    skipIndent n m c = skipIndent n (m + 1) c.skipBreak := by
  rw [skipIndent_cons hrest, if_neg (by simp), if_pos (by decide)]

/-- The spaces of a line are passed up to the indentation. -/
theorem skipIndent_spaces {j : Nat} (hrest : c.rest = List.replicate j ' ' ++ rest)
    (hcolumn : c.column + j ≤ n) : skipIndent n m c = skipIndent n m (c.move j false) := by
  induction j generalizing c with
  | zero => simp [Cursor.move]
  | succ j ih =>
    have hlt : c.column < n := by omega
    have hnext : c.skipWhite.rest = List.replicate j ' ' ++ rest := by
      rw [Cursor.rest_skipWhite, hrest]
      rfl
    have hmove : c.skipWhite.move j false = c.move (j + 1) false := by
      simp [Cursor.skipWhite, Cursor.move, Nat.add_comm, Nat.add_left_comm]
    have hcons : c.rest = ' ' :: (List.replicate j ' ' ++ rest) := by
      rw [hrest, List.replicate_succ]
      rfl
    rw [skipIndent_cons hcons, if_pos (by simp [hlt]), ih hnext (by show c.column + 1 + j ≤ n; omega), hmove]

/-- At text there is nothing to pass. -/
theorem skipIndent_text {x : Char} (hrest : c.rest = x :: rest) (hbreak : isBreak x = false)
    (hx : x = ' ' → n ≤ c.column) : skipIndent n m c = (m, c) := by
  rw [skipIndent_cons hrest, if_neg, if_neg (by simp [hbreak])]
  rw [Bool.and_eq_true, decide_eq_true_eq, decide_eq_true_eq]
  rintro ⟨rfl, hlt⟩
  have := hx rfl
  omega

/-- The number of empty lines in front of some lines. -/
def blanksBefore (ls : List (List Char)) : Nat := (ls.takeWhile (·.isEmpty)).length

@[simp] theorem blanksBefore_nil : blanksBefore [] = 0 := rfl

@[simp] theorem blanksBefore_blank (ls : List (List Char)) :
    blanksBefore ([] :: ls) = blanksBefore ls + 1 := rfl

theorem blanksBefore_cons {l : List Char} (h : l ≠ []) (ls : List (List Char)) :
    blanksBefore (l :: ls) = 0 := by
  rw [blanksBefore, List.takeWhile_cons_of_neg (by simpa using h)]
  rfl

/-- So many lines are empty. -/
theorem getElem?_of_lt_blanksBefore {ls : List (List Char)} {i : Nat} (h : i < blanksBefore ls) :
    ls[i]? = some [] := by
  have hempty := List.mem_takeWhile_imp (List.getElem_mem h)
  rw [List.isEmpty_iff, (List.takeWhile_prefix _).getElem h] at hempty
  exact List.getElem?_eq_some_iff.mpr ⟨_, hempty⟩

/-- Empty lines in front are counted. -/
theorem blanksBefore_replicate_append (b : Nat) (ls : List (List Char)) :
    blanksBefore (List.replicate b [] ++ ls) = b + blanksBefore ls := by
  induction b with
  | zero => rw [List.replicate_zero, List.nil_append, Nat.zero_add]
  | succ b ih =>
    rw [List.replicate_succ, List.cons_append, blanksBefore_blank, ih]
    omega

/-- The place at the start of a line. -/
def lineStart (ls : List (List Char)) (index line : Nat) : Cursor :=
  ⟨unlines ls, ⟨index, line, 0⟩, true⟩

/-- The end of an empty line is the start of the next one. -/
theorem skipBreak_lineStart (ls : List (List Char)) (index line : Nat) :
    (lineStart ([] :: ls) index line).skipBreak = lineStart ls (index + 1) (line + 1) := rfl

/-- Before a line with text its indentation is passed. -/
theorem skipIndent_line {j : Nat} {x : Char} {more : List Char} {ls : List (List Char)}
    (index line : Nat) (hj : j ≤ n) (hbreak : isBreak x = false) (hx : x = ' ' → n ≤ j) :
    skipIndent n m (lineStart ((List.replicate j ' ' ++ x :: more) :: ls) index line) =
      (m, (lineStart ((List.replicate j ' ' ++ x :: more) :: ls) index line).move j false) := by
  have hrest : (lineStart ((List.replicate j ' ' ++ x :: more) :: ls) index line).rest =
      List.replicate j ' ' ++ (x :: (more ++ '\n' :: unlines ls)) := by
    simp [lineStart]
  rw [skipIndent_spaces hrest (by show 0 + j ≤ n; omega)]
  refine skipIndent_text (?_ : _ = x :: (more ++ '\n' :: unlines ls)) hbreak ?_
  · rw [Cursor.rest_move, hrest, List.drop_left' List.length_replicate]
  · intro h
    show n ≤ 0 + j
    have := hx h
    omega

/-- Before outdented lines the gap is passed and its empty lines are counted. -/
theorem skipIndent_outdented {ls : List (List Char)} (h : Outdented k ls) (hk : k < n)
    (index line : Nat) :
    skipIndent n m (lineStart ls index line) =
      (m + blanksBefore ls, (lineStart ls index line).pass (gapBefore ls)) := by
  induction h generalizing m index line with
  | nil => exact skipIndent_nil rfl
  | blank _ ih =>
    rw [skipIndent_break rfl, skipBreak_lineStart, ih, blanksBefore_blank, Nat.add_assoc,
      Nat.add_comm 1]
    rfl
  | comment hj =>
    rw [skipIndent_line index line (by omega) (by decide) (by simp), gapBefore_cons (by decide),
      Cursor.pass_spaces, blanksBefore_cons (by simp)]
    rfl
  | text hj hwhite hbreak =>
    rw [skipIndent_line index line (by omega) hbreak (by rintro rfl; cases hwhite),
      gapBefore_cons hwhite, Cursor.pass_spaces, blanksBefore_cons (by simp)]
    rfl

/-! ## Lines -/

variable {ps after : List (List Char)}

/-- The lines of a block: they hold no line breaks, and the last one is not empty. -/
structure Pieces (ps : List (List Char)) : Prop where
  noBreak : ∀ l ∈ ps, ∀ x ∈ l, isBreak x = false
  last : ps.getLast? ≠ some []

/-- So are those behind the first one. -/
theorem Pieces.tail {l : List Char} (h : Pieces (l :: ps)) : Pieces ps := by
  refine ⟨fun l' hl' => h.noBreak l' (List.mem_cons_of_mem _ hl'), ?_⟩
  cases ps with
  | nil => simp
  | cons p ps =>
    have := h.last
    rwa [List.getLast?_cons_cons] at this

/-- Behind an empty line there are more. -/
theorem Pieces.ne_nil (h : Pieces ([] :: ps)) : ps ≠ [] := by
  rintro rfl
  exact h.last rfl

/-- Before the first line with text the empty ones are counted and its indentation is passed. -/
theorem skipIndent_pieces (hps : Pieces ps) (hne : ps ≠ []) (after : List (List Char))
    (index line : Nat) :
    ∃ x more index', skipIndent n m
      (lineStart (ps.map (Sql.blockLine n) ++ after) index line) =
        (m + blanksBefore ps, ⟨x :: more, ⟨index', line + blanksBefore ps, n⟩, true⟩) := by
  induction ps generalizing m index line with
  | nil => exact absurd rfl hne
  | cons l ps ih =>
    cases l with
    | nil =>
      obtain ⟨x, more, index', hskip⟩ := ih (m := m + 1) hps.tail hps.ne_nil (index + 1) (line + 1)
      refine ⟨x, more, index', ?_⟩
      rw [List.map_cons, List.cons_append, blanksBefore_blank]
      show skipIndent n m (lineStart ([] :: (ps.map (Sql.blockLine n) ++ after)) index line) = _
      rw [skipIndent_break rfl, skipBreak_lineStart, hskip]
      congr 1
      · omega
      · congr 2
        omega
    | cons x l =>
      have hx := hps.noBreak _ List.mem_cons_self x List.mem_cons_self
      refine ⟨x, l ++ '\n' :: unlines (ps.map (Sql.blockLine n) ++ after), index + n, ?_⟩
      rw [List.map_cons, List.cons_append, blanksBefore_cons (by simp)]
      show skipIndent n m (lineStart ((List.replicate n ' ' ++ x :: l) ::
        (ps.map (Sql.blockLine n) ++ after)) index line) = _
      rw [skipIndent_line index line (Nat.le_refl n) hx (fun _ => Nat.le_refl n)]
      simp [lineStart, Cursor.move]

/-- Passing empty lines and indentation does not lengthen the rest. -/
theorem length_skipIndent_le (n m : Nat) (c : Cursor) :
    (skipIndent n m c).2.rest.length ≤ c.rest.length := by
  fun_induction skipIndent n m c with
  | case1 => exact Nat.le_refl _
  | case2 m c x rest hc _ ih =>
    rw [Cursor.rest_skipWhite, List.length_drop] at ih
    omega
  | case3 m c x rest hc _ _ ih =>
    have := Cursor.length_skipBreak_lt (c := c) (by simp [hc])
    omega
  | case4 => exact Nat.le_refl _

/-- A line of a block is read, and the way to the next one is passed. -/
theorem readLines_line {s : Lines} {x : Char} {l : List Char} (hcolumn : c.column = n) (hn : 0 < n)
    (hl : ∀ y ∈ x :: l, isBreak y = false) (hrest : c.rest = x :: l ++ '\n' :: rest)
    {next : Nat × Cursor} (hnext : skipIndent n 0 (c.move (l.length + 1) false).skipBreak = next) :
    readLines true n s c =
      readLines true n
        { text := (x :: l).reverse ++ (s.separator true (isWhite x)).reverse ++ s.text
          broken := true, more := next.1, blank := isWhite x } next.2 := by
  have hline : (x :: (l ++ '\n' :: rest)).takeWhile (fun y => !isBreak y) = x :: l := by
    rw [← List.cons_append, List.takeWhile_append_of_pos (fun y hy => by simp [hl y hy]),
      List.takeWhile_cons_of_neg (by decide), List.append_nil]
  have hbehind : (c.move (l.length + 1) false).rest = '\n' :: rest := by
    rw [Cursor.rest_move, hrest]
    simp
  have hlength : next.2.rest.length < c.rest.length := by
    have := length_skipIndent_le n 0 (c.move (l.length + 1) false).skipBreak
    rw [hnext, Cursor.skipBreak_eq hbehind] at this
    dsimp only at this
    rw [hrest, List.length_append, List.length_cons, List.length_cons]
    omega
  rw [List.cons_append] at hrest
  rw [readLines, if_neg (by simp [hcolumn]; omega)]
  simp only [hrest, hline, List.isEmpty_cons, Bool.false_eq_true, if_false, List.length_cons,
    hbehind, hnext]
  rw [hrest] at hlength
  rw [if_pos (by simpa using hlength)]

/-- From the way to a line of a block the reader gets to the way to the next line. -/
theorem readLines_blockLine {s : Lines} {x : Char} {l : List Char} {ls : List (List Char)}
    (hn : 0 < n) (hl : ∀ y ∈ x :: l, isBreak y = false) {index line : Nat} {start : Nat × Cursor}
    (hstart : skipIndent n m (lineStart ((List.replicate n ' ' ++ x :: l) :: ls) index line) =
      start) :
    ∃ index', let next := skipIndent n 0 (lineStart ls index' (line + 1))
      readLines true n { s with more := start.1 } start.2 =
        readLines true n
          { text := (x :: l).reverse ++
              (({ s with more := m } : Lines).separator true (isWhite x)).reverse ++ s.text
            broken := true, more := next.1, blank := isWhite x } next.2 := by
  rw [skipIndent_line index line (Nat.le_refl n) (hl x List.mem_cons_self)
    (fun _ => Nat.le_refl n)] at hstart
  have hrest : start.2.rest = x :: l ++ '\n' :: unlines ls := by
    rw [← hstart]
    simp [lineStart]
  have hcolumn : start.2.column = n := by
    rw [← hstart]
    exact Nat.zero_add n
  have hmore : start.1 = m := by rw [← hstart]
  have hnext : (start.2.move (l.length + 1) false).skipBreak =
      lineStart ls (index + n + (l.length + 1) + 1) (line + 1) := by
    have hbehind : (start.2.move (l.length + 1) false).rest = '\n' :: unlines ls := by
      rw [Cursor.rest_move, hrest]
      simp
    rw [Cursor.skipBreak_eq hbehind, ← hstart]
    rfl
  refine ⟨index + n + (l.length + 1) + 1, ?_⟩
  rw [hmore]
  exact readLines_line hcolumn hn hl hrest (congrArg _ hnext)

/-- The lines of a block are read up to outdented ones, which follow behind. -/
theorem readLines_pieces (hps : Pieces ps) (hafter : Outdented k after) (hk : k < n) (s : Lines)
    (index line : Nat) {start : Nat × Cursor}
    (hstart : skipIndent n m (lineStart (ps.map (Sql.blockLine n) ++ after) index line) = start) :
    ∃ s' index', readLines true n { s with more := start.1 } start.2 =
        (s', (lineStart after index' (line + ps.length)).pass (gapBefore after)) ∧
      (ps = [] → s' = { s with more := m + blanksBefore after }) ∧
      (ps ≠ [] → s'.broken = true ∧ s'.more = blanksBefore after ∧
        s'.text.reverse = s.text.reverse ++ ((if s.broken then ['\n'] else []) ++
          List.replicate m '\n' ++ List.intercalate ['\n'] ps)) := by
  induction ps generalizing m s index line start with
  | nil =>
    rw [List.map_nil, List.nil_append, skipIndent_outdented hafter hk] at hstart
    rw [← hstart]
    obtain ⟨-, -, -, -, hcolumn⟩ := hafter.gap
    have hle := hcolumn (lineStart after index line) rfl
    refine ⟨{ s with more := m + blanksBefore after }, index, ?_, fun _ => rfl, fun h => absurd rfl h⟩
    rw [readLines, if_pos]
    · rfl
    · rw [Bool.or_eq_true]
      left
      rw [decide_eq_true_eq]
      dsimp only
      omega
  | cons l ps ih =>
    cases l with
    | nil =>
      rw [List.map_cons, List.cons_append] at hstart
      change skipIndent n m (lineStart ([] :: (ps.map (Sql.blockLine n) ++ after)) index line) = _
        at hstart
      rw [skipIndent_break rfl, skipBreak_lineStart] at hstart
      obtain ⟨s', index', hread, -, hs'⟩ := ih hps.tail s (index + 1) (line + 1) hstart
      obtain ⟨hbroken, hmore, htext⟩ := hs' hps.ne_nil
      refine ⟨s', index', ?_, by simp, fun _ => ⟨hbroken, hmore, ?_⟩⟩
      · rw [hread, List.length_cons, Nat.add_assoc, Nat.add_comm 1]
      · rw [htext, List.intercalate_cons_of_ne_nil hps.ne_nil, List.replicate_succ']
        simp
    | cons x l =>
      have hl := hps.noBreak _ List.mem_cons_self
      rw [List.map_cons, List.cons_append] at hstart
      change skipIndent n m (lineStart ((List.replicate n ' ' ++ x :: l) ::
        (ps.map (Sql.blockLine n) ++ after)) index line) = _ at hstart
      obtain ⟨index₁, hline⟩ := readLines_blockLine (s := s) (by omega) hl hstart
      obtain ⟨s', index', hread, hnil, hcons⟩ := ih (m := 0) hps.tail
        { text := (x :: l).reverse ++
            (({ s with more := m } : Lines).separator true (isWhite x)).reverse ++ s.text
          broken := true, blank := isWhite x } index₁ (line + 1) rfl
      refine ⟨s', index', ?_, by simp, fun _ => ?_⟩
      · rw [hline, hread, List.length_cons, Nat.add_assoc, Nat.add_comm 1]
      -- only where a line follows is there a separator behind this one
      · rcases List.eq_nil_or_concat ps with rfl | ⟨_, _, rfl⟩
        · rw [hnil rfl]
          refine ⟨rfl, Nat.zero_add _, ?_⟩
          simp [Lines.separator]
        · obtain ⟨hbroken, hmore, htext⟩ := hcons (by simp)
          refine ⟨hbroken, hmore, ?_⟩
          rw [htext, List.intercalate_cons_of_ne_nil (by simp)]
          simp [Lines.separator]

/-! ## Blocks -/

/-- The spaces of the first line are passed whole where its indentation is looked for. -/
theorem skipFirstIndent_line {x : Char} {more : List Char} (hwhite : x ≠ ' ')
    (hbreak : isBreak x = false) {j : Nat} (hrest : c.rest = List.replicate j ' ' ++ x :: more) :
    skipFirstIndent 0 m c = (c.column + j, m, c.move j false) := by
  induction j generalizing c with
  | zero =>
    rw [skipFirstIndent]
    split
    · next h => simp [hrest] at h
    · next y tail h =>
      obtain rfl : x = y := by
        rw [hrest] at h
        cases h
        rfl
      rw [if_neg hwhite, if_neg (by simp [hbreak])]
      simp [Cursor.move]
  | succ j ih =>
    rw [skipFirstIndent]
    split
    · next h => simp [hrest, List.replicate_succ] at h
    · next y tail h =>
      obtain rfl : ' ' = y := by
        rw [hrest, List.replicate_succ] at h
        cases h
        rfl
      rw [if_pos rfl, ih (by rw [Cursor.rest_skipWhite, hrest]; rfl)]
      simp [Cursor.skipWhite, Cursor.move, Cursor.column, Nat.add_comm, Nat.add_left_comm]

/-- A text that does not begin with a line break begins with its first line. -/
theorem splitOnChar_cons {x : Char} (hx : x ≠ '\n') (text : List Char) :
    ∃ l ls, Text.splitOnChar '\n' (x :: text) = (x :: l) :: ls := by
  obtain ⟨piece, pieces, h⟩ := List.exists_cons_of_ne_nil (Text.splitOnChar_ne_nil '\n' text)
  refine ⟨piece, pieces, ?_⟩
  rw [Text.splitOnChar, if_neg hx, h]

variable {text : List Char} {ls : List (List Char)}

/-- The lines of a text that has other characters than line feeds, and no carriage returns. -/
theorem pieces_bodyLines (hreturn : '\r' ∉ text) (hne : Sql.body text ≠ []) :
    Pieces (Sql.bodyLines text) := by
  refine ⟨?_, ?_⟩
  · intro l hl x hx
    have hfeed : x ≠ '\n' := by
      rintro rfl
      exact Text.not_mem_of_mem_splitOnChar hl hx
    have hx' : x ≠ '\r' := by
      rintro rfl
      refine hreturn ?_
      rw [← Sql.body_append text, List.mem_append]
      left
      exact Text.mem_of_mem_splitOnChar hl hx
    simp [isBreak, hfeed, hx']
  · obtain ⟨before, piece, hpieces, hpiece⟩ := Text.exists_last_piece hne fun h => by
      have := Text.getLast?_dropEndWhile (· = '\n') text '\n' h
      simp at this
    rw [Sql.bodyLines, hpieces, List.getLast?_concat]
    simpa using hpiece

/-- The indentation of a block is found, whether its header gives it or not. -/
theorem findIndent_blockLines (hreturn : '\r' ∉ text) (hne : Sql.body text ≠ [])
    (ls : List (List Char)) (index line : Nat) :
    findIndent k (incrementOf text)
      (lineStart ((Sql.bodyLines text).map (Sql.blockLine (k + 2)) ++ ls) index line) =
    (k + 2, skipIndent (k + 2) 0
      (lineStart ((Sql.bodyLines text).map (Sql.blockLine (k + 2)) ++ ls) index line)) := by
  -- the header gives the indentation where the text begins with a space or a line break
  by_cases h : ((Sql.body text).head? = some ' ' || (Sql.body text).head? = some '\n') = true
  · have hmax : (max (k : Int) 0).toNat + 2 = k + 2 := by omega
    rw [incrementOf, if_pos h, findIndent, hmax]
  · obtain ⟨x, tail, hbody⟩ := List.exists_cons_of_ne_nil hne
    rw [incrementOf, if_neg h, findIndent]
    rw [hbody, List.head?_cons, Bool.or_eq_true, decide_eq_true_eq, decide_eq_true_eq] at h
    have hspace : x ≠ ' ' := fun hx => h (.inl (by rw [hx]))
    have hfeed : x ≠ '\n' := fun hx => h (.inr (by rw [hx]))
    have hbreak : isBreak x = false := by
      have : x ≠ '\r' := by
        rintro rfl
        refine hreturn ?_
        rw [← Sql.body_append text, hbody]
        exact List.mem_append_left _ List.mem_cons_self
      simp [isBreak, hfeed, this]
    obtain ⟨l, ps, hps⟩ := splitOnChar_cons hfeed tail
    have hlines : (Sql.bodyLines text).map (Sql.blockLine (k + 2)) ++ ls =
        (List.replicate (k + 2) ' ' ++ x :: l) :: (ps.map (Sql.blockLine (k + 2)) ++ ls) := by
      rw [Sql.bodyLines, hbody, hps]
      rfl
    rw [hlines, skipIndent_line index line (Nat.le_refl _) hbreak fun hx => absurd hx hspace]
    have hrest : (lineStart ((List.replicate (k + 2) ' ' ++ x :: l) ::
        (ps.map (Sql.blockLine (k + 2)) ++ ls)) index line).rest = List.replicate (k + 2) ' ' ++
          x :: (l ++ '\n' :: unlines (ps.map (Sql.blockLine (k + 2)) ++ ls)) := by
      simp [lineStart]
    rw [skipFirstIndent_line hspace hbreak hrest]
    have hcolumn : (lineStart ((List.replicate (k + 2) ' ' ++ x :: l) ::
        (ps.map (Sql.blockLine (k + 2)) ++ ls)) index line).column = 0 := rfl
    dsimp only
    rw [hcolumn]
    congr 1
    split <;> omega

/-- A text as it is read from its block where empty lines follow: if the text ends with two line
breaks or more they count as part of it. -/
def withBlanks (text : List Char) (blanks : Nat) : List Char :=
  text ++ if 2 ≤ Sql.trailing text then List.replicate blanks '\n' else []

/-- What is taken from the end of a block makes up the end of the text. -/
theorem close_eq {s : Lines} {indent blanks : Nat} (hbroken : s.broken = true)
    (hmore : s.more = Sql.trailing text - 1 + blanks) (htext : s.text.reverse = Sql.body text)
    (hcolumn : c.column < indent) :
    s.close (chompingOf text) indent c = withBlanks text blanks := by
  have hunended : (c.rest.isEmpty && decide (max indent 1 ≤ c.column)) = false := by
    rw [decide_eq_false (by omega), Bool.and_false]
  have hbody := Sql.body_append text
  unfold Lines.close chompingOf withBlanks
  rw [hbroken, hunended, hmore, htext]
  rcases ht : Sql.trailing text with - | - | n
  · rw [ht] at hbody
    simpa using hbody
  · rw [ht] at hbody
    simpa using hbody
  · rw [ht] at hbody
    conv => rhs; rw [← hbody]
    simp [List.replicate_succ, ← List.replicate_append_replicate]

/-- The block of a text is read back, up to the outdented lines behind it. -/
theorem read_literalBlock (hreturn : '\r' ∉ text) (hne : Sql.body text ≠ [])
    (hls : Outdented k ls)
    (hrest : c.rest = Sql.literalBlock text (k + 2) ++ '\n' :: unlines ls) :
    ∃ index index', read true k c = some (withBlanks text (blanksBefore ls),
      ⟨index, c.line + 1 + blanksBefore (Sql.bodyLines text), k + 2⟩,
      (lineStart (List.replicate (Sql.trailing text - 1) [] ++ ls) index'
        (c.line + 1 + (Sql.bodyLines text).length)).pass
          (gapBefore (List.replicate (Sql.trailing text - 1) [] ++ ls))) := by
  rw [Sql.literalBlock_eq, ← Text.unlines_append, Sql.blockLines, List.append_assoc] at hrest
  have hpieces := pieces_bodyLines hreturn hne
  have hpne : Sql.bodyLines text ≠ [] := Text.splitOnChar_ne_nil _ _
  have hafter := hls.blanks (Sql.trailing text - 1)
  generalize hgen : List.replicate (Sql.trailing text - 1) [] ++ ls = after at hrest hafter ⊢
  have hfeed : (c.skip (Sql.header text).length).rest =
      '\n' :: unlines ((Sql.bodyLines text).map (Sql.blockLine (k + 2)) ++ after) := by
    rw [Cursor.rest_skip, hrest, List.drop_left]
  have hstart : (c.skip (Sql.header text).length).skipBreak =
      lineStart ((Sql.bodyLines text).map (Sql.blockLine (k + 2)) ++ after)
        (c.mark.index + (Sql.header text).length + 1) (c.line + 1) := by
    rw [Cursor.skipBreak_eq hfeed]
    rfl
  -- the first line holds text or spaces, so no tab is refused there
  have htab : (lineStart ((Sql.bodyLines text).map (Sql.blockLine (k + 2)) ++ after)
      (c.mark.index + (Sql.header text).length + 1) (c.line + 1)).next? ≠ some '\t' := by
    obtain ⟨l, ps, hl⟩ := List.exists_cons_of_ne_nil hpne
    rw [hl]
    cases l <;> simp [Cursor.next?, lineStart, Sql.blockLine, List.replicate_succ]
  have hindent := findIndent_blockLines (k := k) hreturn hne after
    (c.mark.index + (Sql.header text).length + 1) (c.line + 1)
  obtain ⟨x, more, index, hskip⟩ := skipIndent_pieces (n := k + 2) (m := 0) hpieces hpne after
    (c.mark.index + (Sql.header text).length + 1) (c.line + 1)
  obtain ⟨s', index', hread, -, hs'⟩ := readLines_pieces hpieces hafter (by omega) {} _ _ hskip
  obtain ⟨hbroken, hmore, htext⟩ := hs' hpne
  have hclose : s'.close (chompingOf text) (k + 2)
      ((lineStart after index' (c.line + 1 + (Sql.bodyLines text).length)).pass
        (gapBefore after)) = withBlanks text (blanksBefore ls) := by
    obtain ⟨-, -, -, -, hcolumn⟩ := hafter.gap
    have := hcolumn (lineStart after index' (c.line + 1 + (Sql.bodyLines text).length)) rfl
    refine close_eq hbroken ?_ ?_ (by omega)
    · rw [hmore, ← hgen, blanksBefore_replicate_append]
    · rw [htext]
      exact Text.intercalate_splitOnChar (Sql.body text)
  refine ⟨index, index', ?_⟩
  rw [read, readHeader_header hrest]
  simp only [bind, Option.bind, hfeed, List.isEmpty_cons, Bool.not_false, if_true, hstart]
  rw [if_neg htab, hindent, hskip]
  dsimp only at hread ⊢
  rw [List.isEmpty_cons, if_neg (by decide), if_neg (by simp [Cursor.column])]
  rw [Nat.zero_add] at hread
  rw [Nat.zero_add, hread]
  dsimp only
  rw [hclose]

end Yaml.Block

end QueryBook
