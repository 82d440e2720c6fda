import QueryBook.Proofs.Comments
import QueryBook.Proofs.Passing

/-!
# Places in the lines of a source

The reader counts lines and columns while it moves forward. A line ends at a line feed, at a carriage
return, or at both in this order. What the reader has passed is known of these lines: which markers
are in scalars, and that no scalar stands on a line behind a marker that is in none.
-/

namespace QueryBook

namespace Text

/-- The line of a number, counted from 1; empty if there is none. -/
def lineAt (lines : List (List Char)) (line : Nat) : List Char :=
  if line = 0 then [] else lines[line - 1]?.getD []

/-- A line that is there. -/
theorem lineAt_eq {lines : List (List Char)} {line : Nat} {text : List Char} (hline : line ≠ 0)
    (h : lines[line - 1]? = some text) : lineAt lines line = text := by
  rw [lineAt, if_neg hline, h]
  rfl

/-- A line that holds a character is there. -/
theorem exists_of_mem_lineAt {lines : List (List Char)} {line : Nat} {ch : Char}
    (h : ch ∈ lineAt lines line) :
    ∃ text, lines[line - 1]? = some text ∧ line ≠ 0 ∧ ch ∈ text := by
  unfold lineAt at h
  split at h
  · cases h
  · next hline =>
    cases hget : lines[line - 1]? with
    | none =>
      rw [hget] at h
      cases h
    | some text =>
      rw [hget] at h
      exact ⟨text, rfl, hline, h⟩

theorem lineAt_eq_nil {lines : List (List Char)} {line : Nat} (h : lines.length < line) :
    lineAt lines line = [] := by
  rw [lineAt, if_neg (by omega), List.getElem?_eq_none (by omega)]
  rfl

end Text

namespace Yaml

/-! ## Lines for the reader -/

/-- The lines of a text for the reader, to which a carriage return ends a line as well, be it alone or
before a line feed. The characters of the line under way are given backwards. -/
def linesFrom (before : List Char) : List Char → List (List Char)
  | [] => if before.isEmpty then [] else [before.reverse]
  | '\r' :: '\n' :: rest => before.reverse :: linesFrom [] rest
  | ch :: rest =>
    if isBreak ch then before.reverse :: linesFrom [] rest else linesFrom (ch :: before) rest

/-- The lines of a text for the reader, without their ends. -/
def linesOf (text : List Char) : List (List Char) := linesFrom [] text

/-- What breaks no line is gathered. -/
theorem linesFrom_append {text : List Char} (h : ∀ ch ∈ text, isBreak ch = false)
    (before rest : List Char) :
    linesFrom before (text ++ rest) = linesFrom (text.reverse ++ before) rest := by
  induction text generalizing before with
  | nil => rfl
  | cons ch text ih =>
    rw [List.forall_mem_cons] at h
    rw [List.cons_append, linesFrom.eq_3, h.1, if_neg Bool.false_ne_true, ih h.2, List.reverse_cons,
      List.append_assoc]
    · rfl
    · rintro rest' rfl
      exact absurd h.1 (by decide)

/-- A line break is not longer for what comes behind a text, unless that begins with a line feed. -/
theorem Cursor.breakLength_append {ch : Char} {rest tail : List Char}
    (h : ∀ x ∈ tail.head?, x ≠ '\n') :
    breakLength (ch :: (rest ++ tail)) = breakLength (ch :: rest) := by
  cases rest with
  | nil =>
    rw [List.nil_append, breakLength.eq_2 [ch] nofun]
    refine breakLength.eq_2 _ fun tail' heq => ?_
    rw [List.cons.injEq] at heq
    exact h '\n' (by rw [heq.2]; rfl) rfl
  | cons ch' rest =>
    unfold breakLength
    grind

theorem Cursor.breakLength_le (ch : Char) (rest : List Char) :
    breakLength (ch :: rest) ≤ (ch :: rest).length := by
  unfold breakLength
  split
  · next heq =>
    rw [heq]
    simp
  · simp

/-- A line break ends the line. -/
theorem linesFrom_break {ch : Char} (ends : isBreak ch = true) (before rest : List Char) :
    linesFrom before (ch :: rest) = before.reverse ::
      linesFrom [] ((ch :: rest).drop (Cursor.breakLength (ch :: rest))) := by
  unfold Cursor.breakLength
  split
  · next heq =>
    cases heq
    rfl
  · next hpair =>
    rw [linesFrom.eq_3, if_pos ends]
    · rfl
    · rintro rest' rfl rfl
      exact hpair rest' rfl

/-- What is gathered of a line is at its start, and the rest comes next. -/
theorem lineAt_linesFrom (text : List Char) (above : List (List Char)) (rest : List Char) :
    ∃ more, Text.lineAt (above ++ linesFrom text.reverse rest) (above.length + 1) = text ++ more ∧
      ∀ ch ∈ more.head?, rest.head? = some ch := by
  let more := rest.takeWhile fun ch => !isBreak ch
  have hrest : more ++ rest.dropWhile (fun ch => !isBreak ch) = rest := List.takeWhile_append_dropWhile
  have hmore : ∀ ch ∈ more, isBreak ch = false := fun ch hch => by
    simpa using List.mem_takeWhile_imp hch
  refine ⟨more, ?_, fun ch hch => ?_⟩
  · have hline : (linesFrom text.reverse rest)[0]?.getD [] = text ++ more := by
      rw [← hrest, linesFrom_append hmore, ← List.reverse_append]
      cases hbehind : rest.dropWhile fun ch => !isBreak ch with
      | nil =>
        rw [linesFrom]
        split
        · next hempty =>
          rw [List.isEmpty_iff, List.reverse_eq_nil_iff] at hempty
          rw [hempty]
          rfl
        · rw [List.reverse_reverse]
          rfl
      | cons ch behind =>
        have hbreak := List.head?_dropWhile_not (fun ch => !isBreak ch) rest
        rw [hbehind] at hbreak
        rw [linesFrom_break (by simpa using hbreak), List.reverse_reverse]
        rfl
    rw [Text.lineAt, if_neg (Nat.succ_ne_zero _), Nat.add_sub_cancel,
      List.getElem?_append_right (Nat.le_refl _), Nat.sub_self, hline]
  · obtain ⟨more', hmore'⟩ := List.head?_eq_some_iff.mp hch
    rw [← hrest, hmore']
    rfl

/-! ## Places between marks -/

/-- Whether a place lies from one mark on and before another. -/
def Mark.Spans (first last : Mark) (line column : Nat) : Prop :=
  (first.line < line ∨ first.line = line ∧ first.column ≤ column) ∧
    (line < last.line ∨ line = last.line ∧ column < last.column)

instance (first last : Mark) (line column : Nat) : Decidable (first.Spans last line column) :=
  inferInstanceAs (Decidable (_ ∧ _))

variable {lines : List (List Char)}

namespace Cursor

variable {c d c' : Cursor} {w : List Char}

/-- Whether a cursor is in the source with these lines, at the place that it counts. Its rest ends
with the source or before a NUL character. -/
def IsIn (lines : List (List Char)) (c : Cursor) : Prop :=
  ∃ (above : List (List Char)) (before tail : List Char),
    lines = above ++ linesFrom before.reverse (c.rest ++ tail) ∧
    above.length + 1 = c.line ∧ before.length = c.column ∧ ∀ ch ∈ tail.head?, ch = '\x00'

/-- What is left of the line of a cursor. -/
def ahead (lines : List (List Char)) (c : Cursor) : List Char :=
  (Text.lineAt lines c.line).drop c.column

/-- Lines are counted from 1. -/
theorem IsIn.line_pos (h : c.IsIn lines) : 0 < c.line := by
  obtain ⟨above, -, -, -, hline, -⟩ := h
  omega

/-- Text is taken from the line. -/
theorem IsIn.takes (h : c.IsIn lines) (taken : c.Takes w d) :
    d.IsIn lines ∧ c.ahead lines = w ++ d.ahead lines := by
  obtain ⟨above, before, tail, hlines, hline, hcolumn, htail⟩ := h
  have hdline : d.line = c.line := by rw [line, taken.mark]; rfl
  have hdcolumn : d.column = c.column + w.length := by rw [column, taken.mark]; rfl
  have hlines' : lines = above ++ linesFrom (before ++ w).reverse (d.rest ++ tail) := by
    rw [hlines, taken.rest, List.append_assoc, linesFrom_append taken.line, List.reverse_append]
  refine ⟨⟨above, before ++ w, tail, hlines', hline.trans hdline.symm, ?_, htail⟩, ?_⟩
  · rw [List.length_append, hcolumn, hdcolumn]
  · obtain ⟨more, hmore, -⟩ := lineAt_linesFrom (before ++ w) above (d.rest ++ tail)
    rw [← hlines', hline] at hmore
    rw [ahead, ahead, hdline, hdcolumn, hmore, ← hcolumn, List.append_assoc, List.drop_left,
      ← List.length_append, ← List.append_assoc, List.drop_left]

/-- A line break ends the line. -/
theorem IsIn.skipBreak {ch : Char} {rest : List Char} (h : c.IsIn lines)
    (start : c.rest = ch :: rest) (ends : isBreak ch = true) :
    c.skipBreak.IsIn lines ∧ c.ahead lines = [] := by
  obtain ⟨above, before, tail, hlines, hline, hcolumn, htail⟩ := h
  -- the source does not go on with a line feed behind the rest
  have hbehind : (ch :: (rest ++ tail)).drop (breakLength (ch :: (rest ++ tail))) =
      c.skipBreak.rest ++ tail := by
    have hlength : breakLength (ch :: (rest ++ tail)) = breakLength (ch :: rest) :=
      breakLength_append fun x hx => by rw [htail x hx]; decide
    have hrest : c.skipBreak.rest = (ch :: rest).drop (breakLength (ch :: rest)) := by
      rw [← start]
      rfl
    rw [hlength, hrest, ← List.cons_append, List.drop_append_of_le_length (breakLength_le _ _)]
  have hlines' : lines = (above ++ [before]) ++ linesFrom [] (c.skipBreak.rest ++ tail) := by
    rw [hlines, start, List.cons_append, linesFrom_break ends, hbehind, List.reverse_reverse,
      List.append_assoc, List.singleton_append]
  refine ⟨⟨above ++ [before], [], tail, hlines', ?_, rfl, htail⟩, ?_⟩
  · rw [List.length_append, List.length_singleton, hline]
    rfl
  · have htext : lines[c.line - 1]? = some before := by
      rw [hlines', ← hline]
      simp
    rw [ahead, Text.lineAt_eq (by omega) htext, ← hcolumn, List.drop_length]

/-- The next character of the line comes next, unless it is a NUL character. -/
theorem IsIn.next?_eq_some (h : c.IsIn lines) {ch : Char} (hch : (c.ahead lines).head? = some ch)
    (hne : ch ≠ '\x00') : c.next? = some ch := by
  obtain ⟨above, before, tail, hlines, hline, hcolumn, htail⟩ := h
  obtain ⟨more, hmore, hhead⟩ := lineAt_linesFrom before above (c.rest ++ tail)
  rw [ahead, ← hline, hlines, hmore, ← hcolumn, List.drop_left] at hch
  have hnext := hhead ch hch
  cases hrest : c.rest with
  | nil =>
    rw [hrest, List.nil_append] at hnext
    exact absurd (htail ch hnext) hne
  | cons x rest =>
    rw [hrest] at hnext
    rw [next?, hrest]
    exact hnext

/-- A cursor is in a source by its rest and its place. -/
theorem IsIn.congr (h : c.IsIn lines) (hrest : d.rest = c.rest) (hmark : d.mark = c.mark) :
    d.IsIn lines := by
  unfold IsIn line column
  rw [hrest, hmark]
  exact h

/-- Crossing stays in the source. -/
theorem IsIn.crosses (h : c.IsIn lines) (hc : c.Crosses c') : c'.IsIn lines := by
  induction hc with
  | done rest mark => exact h.congr rest mark
  | text taken _ ih => exact ih (h.takes taken).1
  | lineBreak start ends rest mark _ ih => exact ih ((h.skipBreak start ends).1.congr rest mark)

/-- Text that is taken stands at its place in the line. -/
theorem IsIn.getElem?_takes (h : c.IsIn lines) (taken : c.Takes w d) {i : Nat} (hi : i < w.length) :
    (Text.lineAt lines c.line)[c.column + i]? = w[i]? := by
  rw [← List.getElem?_drop, ← ahead, (h.takes taken).2, List.getElem?_append_left hi]

end Cursor

/-! ## Markers -/

/-- Whether a marker stands at a place: at the beginning of its line or behind a blank. -/
def IsMarker (lines : List (List Char)) (line column : Nat) : Prop :=
  (Text.lineAt lines line)[column]? = some '#' ∧
    (column = 0 ∨ ∃ ch, (Text.lineAt lines line)[column - 1]? = some ch ∧ isWhite ch = true)

namespace Cursor

variable {c d c' : Cursor} {w : List Char} {line column : Nat}
  {covered held held' : Nat → Nat → Prop}

/-- No marker is in a word that does not begin with one. -/
theorem IsIn.not_isMarker (h : c.IsIn lines) (taken : c.Takes w d)
    (nonwhite : ∀ ch ∈ w, isWhite ch = false) (first : w.head? ≠ some '#') {i : Nat}
    (hi : i < w.length) : ¬ IsMarker lines c.line (c.column + i) := by
  rintro ⟨hmarker, hbefore⟩
  rw [h.getElem?_takes taken hi] at hmarker
  cases i with
  | zero => exact first (by rw [List.head?_eq_getElem?, hmarker])
  | succ i =>
    rcases hbefore with hzero | ⟨ch, hch, hwhite⟩
    · omega
    · rw [← Nat.add_assoc, Nat.add_sub_cancel, h.getElem?_takes taken (by omega)] at hch
      rw [nonwhite ch (List.mem_of_getElem? hch)] at hwhite
      cases hwhite

/-- Whether a place lies before a cursor. -/
def IsPast (c : Cursor) (line column : Nat) : Prop :=
  line < c.line ∨ line = c.line ∧ column < c.column

/-- What is known of the places before a cursor. Scalars `held` some of them; markers are among the
places `covered` by quotes and blocks, or nothing on their line is held behind them. -/
structure Separates (lines : List (List Char)) (covered held : Nat → Nat → Prop) (c : Cursor) :
    Prop where
  past : ∀ line column, held line column → c.IsPast line column
  apart : ∀ line column, IsMarker lines line column → c.IsPast line column →
    covered line column ∨
      (∀ column' ≥ column, ¬ held line column') ∧ (line < c.line ∨ endsLine c.next? = true)

/-- The start of a source is before everything. -/
theorem separates_ofSource (source : List Char) (covered : Nat → Nat → Prop) :
    (ofSource source).Separates lines covered fun _ _ => False where
  past := nofun
  apart := fun line column hmarker hpast => by
    rcases hpast with hline | ⟨-, hcolumn⟩
    · obtain rfl : line = 0 := Nat.lt_one_iff.mp hline
      simp [IsMarker, Text.lineAt] at hmarker
    · exact absurd hcolumn (Nat.not_lt_zero _)

/-- What is known of places depends only on the rest of a cursor and its place. -/
theorem Separates.congr (h : c.Separates lines covered held) (hrest : d.rest = c.rest)
    (hmark : d.mark = c.mark) : d.Separates lines covered held where
  past := by
    unfold IsPast Cursor.line Cursor.column
    rw [hmark]
    exact h.past
  apart := by
    unfold IsPast Cursor.line Cursor.column next?
    rw [hmark, hrest]
    exact h.apart

/-- What lies before a cursor lies before all cursors behind it. -/
theorem IsPast.crosses (h : c.IsPast line column) (hc : c.Crosses c') : c'.IsPast line column := by
  have hforward := hc.forward
  unfold IsPast at *
  omega

/-- Text without a marker can be held. -/
theorem Separates.takes (h : c.Separates lines covered held) (taken : c.Takes w d)
    (unmarked : ∀ i < w.length, ¬ IsMarker lines c.line (c.column + i))
    (grows : ∀ line column, held' line column → held line column ∨
      line = c.line ∧ ∃ i < w.length, column = c.column + i) :
    d.Separates lines covered held' := by
  have hline : d.line = c.line := by rw [Cursor.line, taken.mark]; rfl
  have hcolumn : d.column = c.column + w.length := by rw [Cursor.column, taken.mark]; rfl
  constructor
  · intro line column hheld
    rcases grows line column hheld with hheld | ⟨rfl, i, hi, rfl⟩
    · exact (h.past line column hheld).crosses taken.crosses
    · exact .inr ⟨hline.symm, by omega⟩
  · intro line column hmarker hpast
    by_cases hbefore : c.IsPast line column
    · refine (h.apart line column hmarker hbefore).imp_right fun hplace => ?_
      obtain ⟨hfree, hends⟩ := hplace
      cases w with
      | nil =>
        have hrest : d.rest = c.rest := taken.rest.symm
        refine ⟨fun column' hle hheld => ?_, ?_⟩
        · rcases grows line column' hheld with hheld | ⟨-, i, hi, -⟩
          · exact hfree column' hle hheld
          · exact absurd hi (Nat.not_lt_zero i)
        · rw [hline, next?, hrest]
          exact hends
      | cons ch w =>
        have hlater : line < c.line := by
          refine hends.resolve_right fun hends => ?_
          rw [next?, taken.rest] at hends
          exact absurd hends (by simp [endsLine, taken.line ch List.mem_cons_self])
        refine ⟨fun column' hle hheld => ?_, .inl (by omega)⟩
        rcases grows line column' hheld with hheld | ⟨rfl, -⟩
        · exact hfree column' hle hheld
        · omega
    · -- the marker would be in the text
      unfold IsPast at hpast hbefore
      obtain rfl : line = c.line := by omega
      obtain ⟨i, rfl⟩ := Nat.exists_eq_add_of_le (show c.column ≤ column by omega)
      exact absurd hmarker (unmarked i (by omega))

/-- The rest of a line is passed. -/
theorem Separates.takesLine (h : c.Separates lines covered held) (taken : c.Takes w d)
    (ends : endsLine d.next? = true) : d.Separates lines covered held where
  past := fun line column hheld => (h.past line column hheld).crosses taken.crosses
  apart := by
    intro line column hmarker hpast
    have hline : d.line = c.line := by rw [Cursor.line, taken.mark]; rfl
    by_cases hbefore : c.IsPast line column
    · exact (h.apart line column hmarker hbefore).imp_right fun hfree => ⟨hfree.1, .inr ends⟩
    · refine .inr ⟨fun column' hle hheld => hbefore ?_, .inr ends⟩
      have hpast' := h.past line column' hheld
      unfold IsPast at *
      omega

/-- A line break is passed. -/
theorem Separates.skipBreak {ch : Char} {rest : List Char} (hin : c.IsIn lines)
    (h : c.Separates lines covered held) (start : c.rest = ch :: rest) (ends : isBreak ch = true) :
    c.skipBreak.Separates lines covered held where
  past := fun line column hheld =>
    (h.past line column hheld).crosses (passes_skipBreak start ends).crosses
  apart := by
    intro line column hmarker hpast
    have hline : c.skipBreak.line = c.line + 1 := rfl
    by_cases hbefore : c.IsPast line column
    · refine (h.apart line column hmarker hbefore).imp_right fun hfree => ⟨hfree.1, .inl ?_⟩
      unfold IsPast at hbefore
      omega
    · -- nothing is left of the line
      have hcolumn : c.skipBreak.column = 0 := rfl
      unfold IsPast at hpast hbefore
      obtain rfl : line = c.line := by omega
      have hnone := (hin.skipBreak start ends).2
      rw [ahead, List.drop_eq_nil_iff] at hnone
      have hmarker := hmarker.1
      rw [List.getElem?_eq_none (by omega)] at hmarker
      cases hmarker

/-- Passing holds nothing and needs no cover. -/
theorem Separates.passes (hin : c.IsIn lines) (h : c.Separates lines covered held)
    (hc : c.Passes c') : c'.Separates lines covered held := by
  induction hc with
  | done rest mark => exact h.congr rest mark
  | word taken nonwhite first _ ih =>
    exact ih (hin.takes taken).1 (h.takes taken (fun _ => hin.not_isMarker taken nonwhite first)
      fun _ _ => .inl)
  | white taken white _ ih =>
    refine ih (hin.takes taken).1 (h.takes taken (fun i hi hmarker => ?_) fun _ _ => .inl)
    have hmarker := hmarker.1
    obtain rfl : i = 0 := Nat.lt_one_iff.mp hi
    rw [hin.getElem?_takes taken hi] at hmarker
    cases hmarker
    cases white
  | line taken ends _ ih => exact ih (hin.takes taken).1 (h.takesLine taken ends)
  | lineBreak start ends rest mark _ ih =>
    exact ih ((hin.skipBreak start ends).1.congr rest mark)
      ((h.skipBreak hin start ends).congr rest mark)

/-- Passing a place is leaving it behind. -/
theorem spans_iff :
    c.mark.Spans d.mark line column ↔ ¬ c.IsPast line column ∧ d.IsPast line column := by
  unfold Mark.Spans IsPast Cursor.line Cursor.column
  omega

/-- What lies between two cursors can be covered and held. -/
theorem Separates.cover (h : c.Separates lines covered held) (hc : c.Crosses d)
    (inLine : endsLine c.next? = false) :
    d.Separates lines (fun line column => covered line column ∨ c.mark.Spans d.mark line column)
      (fun line column => held line column ∨ c.mark.Spans d.mark line column) where
  past := fun line column hheld =>
    hheld.elim (fun hheld => (h.past line column hheld).crosses hc) fun hspans =>
      (spans_iff.mp hspans).2
  apart := by
    intro line column hmarker hpast
    by_cases hbefore : c.IsPast line column
    · rcases h.apart line column hmarker hbefore with hcovered | ⟨hfree, hends⟩
      · exact .inl (.inl hcovered)
      · have hlater : line < c.line := hends.resolve_right (by simp [inLine])
        refine .inr ⟨fun column' hle hheld => ?_, .inl ?_⟩
        · rcases hheld with hheld | hspans
          · exact hfree column' hle hheld
          · exact (spans_iff.mp hspans).1 (.inl hlater)
        · have hforward := hc.forward
          omega
    · exact .inl (.inr (spans_iff.mpr ⟨hbefore, hpast⟩))

end Cursor

end Yaml

end QueryBook
