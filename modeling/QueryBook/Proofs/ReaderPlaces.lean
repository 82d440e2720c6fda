import Mathlib.Data.List.Induction
import QueryBook.Proofs.Places

/-!
# Places for the search and for the reader

Comments are searched for in lines that end at line feeds. To the reader a line ends at a carriage
return as well, so behind those that end no line of the search a place has other numbers. The
character there is the same. Where all carriage returns end lines, so are the lines and the numbers.
-/

namespace QueryBook

namespace Text

/-! ## The first line of a text -/

/-- How a text starts with a line: a line feed ends it, alone or behind a carriage return, or it is
the last one. -/
inductive StartsWith (line : List Char) : List Char → List Char → Prop
  | feed (rest : List Char) (ending : line.getLast? ≠ some '\r') :
    StartsWith line rest (line ++ '\n' :: rest)
  | both (rest : List Char) : StartsWith line rest (line ++ '\r' :: '\n' :: rest)
  | last (some : line ≠ []) : StartsWith line [] line

/-- A text starts with its first line. -/
theorem exists_startsWith {text : List Char} (h : text ≠ []) :
    ∃ line rest, '\n' ∉ line ∧ lines text = line :: lines rest ∧ StartsWith line rest text := by
  by_cases hmem : '\n' ∈ text
  · obtain ⟨line, rest, rfl, hline⟩ := List.eq_append_cons_of_mem hmem
    have hlines : lines (line ++ '\n' :: rest) = closeLine line.reverse :: lines rest := by
      rw [lines, linesFrom_append hline, List.append_nil, linesFrom, lines]
    by_cases hreturn : line.getLast? = some '\r'
    · obtain ⟨line, rfl⟩ := List.getLast?_eq_some_iff.mp hreturn
      refine ⟨line, rest, fun hfeed => hline (List.mem_append_left _ hfeed), ?_, ?_⟩
      · rw [hlines, List.reverse_append, List.reverse_singleton, List.singleton_append, closeLine,
          List.reverse_reverse]
      · rw [List.append_assoc]
        exact .both rest
    · refine ⟨line, rest, hline, ?_, .feed rest hreturn⟩
      rw [hlines, closeLine_reverse hreturn]
  · refine ⟨text, [], hmem, ?_, .last h⟩
    rw [lines, ← List.append_nil text, linesFrom_append hmem]
    simp [linesFrom, lines, h]

/-- Behind the line comes the rest. -/
theorem StartsWith.suffix {line rest text : List Char} (h : StartsWith line rest text) :
    rest <:+ text := by
  cases h with
  | feed => exact (List.suffix_cons _ _).trans (List.suffix_append _ _)
  | both =>
    exact ((List.suffix_cons _ _).trans (List.suffix_cons _ _)).trans (List.suffix_append _ _)
  | last => exact List.nil_suffix

theorem StartsWith.isPrefix {line rest text : List Char} (h : StartsWith line rest text) :
    line <+: text := by
  cases h with
  | feed | both => exact List.prefix_append _ _
  | last => exact List.prefix_rfl

/-! ## Carriage returns that end lines -/

/-- Whether every carriage return of a text belongs to the end of a line. -/
def ReturnsEndLines (text : List Char) : Prop :=
  ∀ before rest, text = before ++ '\r' :: rest → rest.head? = some '\n'

/-- So it is in the rest of a text. -/
theorem ReturnsEndLines.of_suffix {text rest : List Char} (h : ReturnsEndLines text)
    (hrest : rest <:+ text) : ReturnsEndLines rest := by
  obtain ⟨before, rfl⟩ := hrest
  rintro before' rest' rfl
  exact h (before ++ before') rest' (List.append_assoc ..).symm

/-- Then no line holds one. -/
theorem StartsWith.return_not_mem {line rest text : List Char} (h : StartsWith line rest text)
    (hreturns : ReturnsEndLines text) (hfeed : '\n' ∉ line) : '\r' ∉ line := by
  intro hmem
  obtain ⟨before, behind, rfl⟩ := List.append_of_mem hmem
  -- the line would end with the carriage return
  have hbehind {ending : List Char} (htext : text = before ++ '\r' :: (behind ++ ending)) :
      behind = [] ∧ ending.head? = some '\n' := by
    have hhead := hreturns before _ htext
    cases behind with
    | nil => exact ⟨rfl, hhead⟩
    | cons ch behind =>
      obtain rfl := Option.some.inj hhead
      exact absurd (by simp) hfeed
  cases h with
  | feed _ ending =>
    obtain ⟨rfl, -⟩ := hbehind (List.append_assoc ..)
    exact ending List.getLast?_concat
  | both => cases (hbehind (List.append_assoc ..)).2
  | last => cases (hbehind (by rw [List.append_nil])).2

end Text

namespace Yaml

variable {text : List Char} {line column : Nat}

/-- The characters that end a line are two. -/
theorem isBreak_eq_false {ch : Char} (hfeed : ch ≠ '\n') (hreturn : ch ≠ '\r') :
    isBreak ch = false := by
  rw [isBreak, decide_eq_false hfeed, decide_eq_false hreturn]
  rfl

/-- A line without carriage returns is a line of the reader. -/
theorem linesOf_of_startsWith {l rest : List Char} (h : Text.StartsWith l rest text)
    (hline : ∀ ch ∈ l, isBreak ch = false) : linesOf text = l :: linesOf rest := by
  unfold linesOf
  cases h with
  | feed | both =>
    rw [linesFrom_append hline, linesFrom_break (by decide), List.append_nil, List.reverse_reverse]
    rfl
  | last some =>
    rw [← List.append_nil text, linesFrom_append hline]
    simp [linesFrom, some]

/-- Where all carriage returns end lines, the lines are those of the reader and hold none. -/
theorem linesOf_eq_lines (h : Text.ReturnsEndLines text) :
    linesOf text = Text.lines text ∧ ∀ l ∈ Text.lines text, '\r' ∉ l := by
  induction hls : Text.lines text generalizing text with
  | nil =>
    by_cases hnil : text = []
    · rw [hnil]
      exact ⟨rfl, nofun⟩
    · obtain ⟨line, rest, -, hlines, -⟩ := Text.exists_startsWith hnil
      rw [hls] at hlines
      cases hlines
  | cons l ls ih =>
    have hsome : text ≠ [] := by
      rintro rfl
      cases hls
    obtain ⟨line, rest, hfeed, hlines, hstart⟩ := Text.exists_startsWith hsome
    rw [hls, List.cons.injEq] at hlines
    obtain ⟨rfl, hrest⟩ := hlines
    have hreturn := hstart.return_not_mem h hfeed
    have hline : ∀ ch ∈ l, isBreak ch = false := by
      intro ch hch
      exact isBreak_eq_false (fun heq => hfeed (heq ▸ hch)) fun heq => hreturn (heq ▸ hch)
    obtain ⟨hsame, hall⟩ := ih (h.of_suffix hstart.suffix) hrest.symm
    rw [linesOf_of_startsWith hstart hline, hsame]
    exact ⟨rfl, List.forall_mem_cons.mpr ⟨hreturn, hall⟩⟩

/-- Lines without line breaks are lines of the reader. -/
theorem linesOf_unlines_append {ls : List (List Char)}
    (h : ∀ l ∈ ls, ∀ ch ∈ l, isBreak ch = false) (rest : List Char) :
    linesOf (Text.unlines ls ++ rest) = ls ++ linesOf rest := by
  induction ls with
  | nil => rfl
  | cons l ls ih =>
    rw [List.forall_mem_cons] at h
    have hreturn : l.getLast? ≠ some '\r' := fun hlast =>
      absurd (h.1 '\r' (List.mem_of_getLast? hlast)) (by decide)
    rw [Text.unlines_cons, List.append_assoc, List.cons_append,
      linesOf_of_startsWith (.feed _ hreturn) h.1, ih h.2, List.cons_append]

/-! ## Places for the reader -/

/-- The length of a text up to its last carriage return. -/
def throughReturn (text : List Char) : Nat := (text.reverse.dropWhile (· ≠ '\r')).length

theorem throughReturn_le (text : List Char) : throughReturn text ≤ text.length := by
  have hle := (List.dropWhile_suffix (l := text.reverse) (· ≠ '\r')).length_le
  rwa [List.length_reverse] at hle

theorem throughReturn_concat_return (text : List Char) :
    throughReturn (text ++ ['\r']) = text.length + 1 := by
  rw [throughReturn, List.reverse_append, List.reverse_singleton, List.singleton_append,
    List.dropWhile_cons_of_neg (by simp), List.length_cons, List.length_reverse]

theorem throughReturn_append {rest : List Char} (h : '\r' ∉ rest) (text : List Char) :
    throughReturn (text ++ rest) = throughReturn text := by
  rw [throughReturn, List.reverse_append, List.dropWhile_append_of_pos, throughReturn]
  intro ch hch
  rw [decide_eq_true_eq]
  rintro rfl
  exact h (List.mem_reverse.mp hch)

theorem throughReturn_eq_zero (h : '\r' ∉ text) : throughReturn text = 0 :=
  throughReturn_append h []

/-- The line on which the reader has a place of the lines of the search. Each carriage return before
the place that ends none of these lines ends one for the reader. -/
def readerLine (lines : List (List Char)) (line column : Nat) : Nat :=
  line + (lines.take (line - 1)).flatten.count '\r' +
    ((Text.lineAt lines line).take column).count '\r'

/-- The column at which the reader has a place of the lines of the search, counted from the last
carriage return before it. -/
def readerColumn (lines : List (List Char)) (line column : Nat) : Nat :=
  column - throughReturn ((Text.lineAt lines line).take column)

/-- Where no line holds a carriage return, the reader has the same places. -/
theorem readerPlace_eq {lines : List (List Char)} (h : ∀ l ∈ lines, '\r' ∉ l) (line column : Nat) :
    readerLine lines line column = line ∧ readerColumn lines line column = column := by
  have hline : '\r' ∉ (Text.lineAt lines line).take column := by
    intro hmem
    obtain ⟨l, hget, -, hl⟩ := Text.exists_of_mem_lineAt (List.mem_of_mem_take hmem)
    exact h l (List.mem_of_getElem? hget) hl
  have habove : '\r' ∉ (lines.take (line - 1)).flatten := by
    rw [List.mem_flatten]
    rintro ⟨l, hl, hmem⟩
    exact h l (List.mem_of_mem_take hl) hmem
  rw [readerLine, readerColumn, List.count_eq_zero_of_not_mem hline,
    List.count_eq_zero_of_not_mem habove, throughReturn_eq_zero hline]
  exact ⟨rfl, rfl⟩

namespace Cursor

variable {lines : List (List Char)} {c : Cursor} {rest : List Char}

/-- The reader passes the start of a line of the search. -/
theorem IsIn.exists_behind (h : c.IsIn lines) (hcolumn : c.column = 0)
    (hrest : c.rest = text ++ rest) (hfeed : '\n' ∉ text)
    (hend : text.getLast? = some '\r' → rest.head? ≠ some '\n') :
    ∃ d : Cursor, d.IsIn lines ∧ d.rest = rest ∧ d.line = c.line + text.count '\r' ∧
      d.column = text.length - throughReturn text := by
  induction text using List.reverseRecOn generalizing rest with
  | nil => exact ⟨c, h, hrest, rfl, hcolumn⟩
  | append_singleton text ch ih =>
    rw [List.mem_append, List.mem_singleton, not_or] at hfeed
    rw [List.append_assoc, List.singleton_append] at hrest
    obtain ⟨d, hd, hdrest, hdline, hdcolumn⟩ := ih hrest hfeed.1 fun _ heq =>
      hfeed.2 (Option.some.inj heq).symm
    rw [List.count_append, List.length_append, List.length_singleton]
    by_cases hch : ch = '\r'
    · subst hch
      -- the carriage return is alone
      have hlength : breakLength ('\r' :: rest) = 1 := by
        refine breakLength.eq_2 _ fun behind heq => ?_
        rw [(List.cons.inj heq).2] at hend
        exact hend List.getLast?_concat rfl
      have hbehind : d.skipBreak.rest = rest := by
        rw [Cursor.skipBreak, hdrest, hlength]
        rfl
      refine ⟨d.skipBreak, (hd.skipBreak hdrest rfl).1, hbehind, ?_, ?_⟩
      · rw [List.count_singleton_self, ← Nat.add_assoc, ← hdline]
        rfl
      · rw [throughReturn_concat_return, Nat.sub_self]
        rfl
    · have hbreak : isBreak ch = false := isBreak_eq_false (Ne.symm hfeed.2) hch
      refine ⟨d.skip 1, (hd.takes (takes_cons true hdrest hbreak)).1, ?_, ?_, ?_⟩
      · rw [rest_skip, hdrest]
        rfl
      · rw [List.count_singleton, if_neg (by simpa using hch), Nat.add_zero, ← hdline]
        rfl
      · rw [throughReturn_append (by simpa using Ne.symm hch),
          Nat.sub_add_comm (throughReturn_le text), ← hdcolumn]
        rfl

/-- The reader comes to the start of the line behind. -/
theorem IsIn.exists_next (h : c.IsIn lines) (hcolumn : c.column = 0) {l : List Char}
    (hstart : Text.StartsWith l rest c.rest) (hfeed : '\n' ∉ l) (hrest : rest ≠ []) :
    ∃ d : Cursor, d.IsIn lines ∧ d.column = 0 ∧ d.rest = rest ∧
      d.line = c.line + l.count '\r' + 1 := by
  generalize hsource : c.rest = source at hstart
  cases hstart with
  | feed _ ending =>
    obtain ⟨d, hd, hdrest, hdline, -⟩ :=
      h.exists_behind hcolumn hsource hfeed fun hreturn => absurd hreturn ending
    refine ⟨d.skipBreak, (hd.skipBreak hdrest rfl).1, rfl, ?_, by rw [← hdline]; rfl⟩
    rw [Cursor.skipBreak, hdrest]
    rfl
  | both =>
    obtain ⟨d, hd, hdrest, hdline, -⟩ :=
      h.exists_behind hcolumn hsource hfeed fun _ heq => absurd (Option.some.inj heq) (by decide)
    refine ⟨d.skipBreak, (hd.skipBreak hdrest rfl).1, rfl, ?_, by rw [← hdline]; rfl⟩
    rw [Cursor.skipBreak, hdrest]
    rfl
  | last => exact absurd rfl hrest

/-- The reader comes to the start of every line of the search. -/
theorem IsIn.exists_line (h : c.IsIn lines) (hcolumn : c.column = 0) {l : List Char} {i : Nat}
    (hl : (Text.lines c.rest)[i]? = some l) :
    ∃ d : Cursor, d.IsIn lines ∧ d.column = 0 ∧ '\n' ∉ l ∧ l <+: d.rest ∧
      d.line = c.line + i + ((Text.lines c.rest).take i).flatten.count '\r' := by
  have hsome {text : List Char} {i : Nat} (hl : (Text.lines text)[i]? = some l) : text ≠ [] := by
    rintro rfl
    cases hl
  induction i generalizing c with
  | zero =>
    obtain ⟨first, rest, hfeed, hlines, hstart⟩ := Text.exists_startsWith (hsome hl)
    rw [hlines] at hl
    cases hl
    exact ⟨c, h, hcolumn, hfeed, hstart.isPrefix, rfl⟩
  | succ i ih =>
    obtain ⟨first, rest, hfeed, hlines, hstart⟩ := Text.exists_startsWith (hsome hl)
    rw [hlines, List.getElem?_cons_succ] at hl
    obtain ⟨d, hd, hdcolumn, hdrest, hdline⟩ := h.exists_next hcolumn hstart hfeed (hsome hl)
    rw [← hdrest] at hl
    obtain ⟨e, he, hecolumn, hefeed, hestart, heline⟩ := ih hd hdcolumn hl
    refine ⟨e, he, hecolumn, hefeed, hestart, ?_⟩
    rw [heline, hdline, hlines, hdrest, List.take_succ_cons, List.flatten_cons, List.count_append]
    omega

end Cursor

/-- At the place of the reader is the character that the search has there. -/
theorem getElem?_readerPlace {ch : Char}
    (h : (Text.lineAt (Text.lines text) line)[column]? = some ch) (hne : ch ≠ '\r') :
    (Text.lineAt (linesOf text) (readerLine (Text.lines text) line column))[readerColumn
      (Text.lines text) line column]? = some ch := by
  obtain ⟨l, hl, hline, -⟩ := Text.exists_of_mem_lineAt (List.mem_of_getElem? h)
  rw [readerLine, readerColumn, Text.lineAt_eq hline hl] at *
  have hin : (Cursor.ofSource text).IsIn (linesOf text) :=
    ⟨[], [], [], congrArg linesOf (List.append_nil text).symm, rfl, rfl, nofun⟩
  obtain ⟨c, hc, hcolumn, hfeed, ⟨behind, hbehind⟩, hcline⟩ := hin.exists_line rfl hl
  obtain ⟨hlt, hget⟩ := List.getElem?_eq_some_iff.mp h
  have hsplit : l.take column ++ ch :: l.drop (column + 1) = l := by
    rw [← hget, ← List.drop_eq_getElem_cons hlt, List.take_append_drop]
  have hch : ch ≠ '\n' := by
    rintro rfl
    exact hfeed (List.mem_of_getElem? h)
  have hrest : c.rest = l.take column ++ ch :: (l.drop (column + 1) ++ behind) := by
    rw [← hbehind, ← List.cons_append, ← List.append_assoc, hsplit]
  obtain ⟨d, hd, hdrest, hdline, hdcolumn⟩ := hc.exists_behind hcolumn hrest
    (fun hmem => hfeed (List.mem_of_mem_take hmem)) fun _ heq => hch (Option.some.inj heq)
  have hget := hd.getElem?_takes (Cursor.takes_cons true hdrest (isBreak_eq_false hch hne))
    Nat.zero_lt_one
  have hreader : d.line = line + ((Text.lines text).take (line - 1)).flatten.count '\r' +
      (l.take column).count '\r' := by
    have hfirst : (Cursor.ofSource text).line = 1 := rfl
    have hrest : (Cursor.ofSource text).rest = text := rfl
    rw [hdline, hcline, hfirst, hrest]
    omega
  rwa [Nat.add_zero, hreader, hdcolumn, List.length_take_of_le (Nat.le_of_lt hlt)] at hget

/-- Behind a carriage return a line of the reader begins. -/
theorem readerColumn_return {lines : List (List Char)}
    (h : (Text.lineAt lines line)[column]? = some '\r') :
    readerColumn lines line (column + 1) = 0 := by
  obtain ⟨hlt, hget⟩ := List.getElem?_eq_some_iff.mp h
  rw [readerColumn, ← List.take_append_getElem hlt, hget, throughReturn_concat_return,
    List.length_take_of_le (Nat.le_of_lt hlt), Nat.sub_self]

/-- Up to the next carriage return the line of the reader goes on. -/
theorem readerPlace_of_le {lines : List (List Char)} {column' : Nat} (hle : column ≤ column')
    (h : ∀ i, column ≤ i → i < column' → (Text.lineAt lines line)[i]? ≠ some '\r') :
    readerLine lines line column' = readerLine lines line column ∧
      readerColumn lines line column' = readerColumn lines line column + (column' - column) := by
  have hsplit : (Text.lineAt lines line).take column' = (Text.lineAt lines line).take column ++
      ((Text.lineAt lines line).drop column).take (column' - column) := by
    rw [← List.take_add, Nat.add_sub_of_le hle]
  have hbetween : '\r' ∉ ((Text.lineAt lines line).drop column).take (column' - column) := by
    intro hmem
    obtain ⟨i, hi⟩ := List.mem_iff_getElem?.mp hmem
    rw [List.getElem?_take] at hi
    split at hi
    · next hlt =>
      rw [List.getElem?_drop] at hi
      exact h _ (Nat.le_add_right _ _) (by omega) hi
    · cases hi
  have hthrough := throughReturn_le ((Text.lineAt lines line).take column)
  have hlength := List.length_take_le column (Text.lineAt lines line)
  rw [readerLine, readerColumn, hsplit, List.count_append, List.count_eq_zero_of_not_mem hbetween,
    throughReturn_append hbetween]
  refine ⟨rfl, ?_⟩
  rw [readerColumn]
  omega

/-- A `#` is a marker for the reader exactly if it is at the beginning of a line or behind a space, a
tab or a carriage return. -/
theorem isMarker_readerPlace_iff
    (h : (Text.lineAt (Text.lines text) line)[column]? = some '#') :
    IsMarker (linesOf text) (readerLine (Text.lines text) line column)
        (readerColumn (Text.lines text) line column) ↔
      column = 0 ∨ ∃ ch, (Text.lineAt (Text.lines text) line)[column - 1]? = some ch ∧
        (isWhite ch = true ∨ ch = '\r') := by
  rw [IsMarker, and_iff_right (getElem?_readerPlace h (by decide))]
  cases column with
  | zero => simp [readerColumn]
  | succ column =>
    obtain ⟨hlt, -⟩ := List.getElem?_eq_some_iff.mp h
    have hbefore := List.getElem?_eq_getElem (Nat.lt_of_succ_lt hlt)
    generalize (Text.lineAt (Text.lines text) line)[column] = ch at hbefore
    rw [Nat.add_sub_cancel, hbefore]
    by_cases hch : ch = '\r'
    · subst hch
      simp [readerColumn_return hbefore]
    · have hsame : ∀ i, column ≤ i → i < column + 1 →
          (Text.lineAt (Text.lines text) line)[i]? ≠ some '\r' := by
        intro i hle hlt
        obtain rfl : i = column := Nat.le_antisymm (Nat.le_of_lt_succ hlt) hle
        rw [hbefore]
        simpa using hch
      obtain ⟨hline, hcolumn⟩ := readerPlace_of_le (Nat.le_succ column) hsame
      have hreader := getElem?_readerPlace hbefore hch
      rw [hline, hcolumn, Nat.succ_sub (Nat.le_refl column), Nat.sub_self, Nat.add_sub_cancel,
        hreader]
      simp [hch]

end Yaml

end QueryBook
