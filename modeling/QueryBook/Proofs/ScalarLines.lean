import QueryBook.Proofs.HiddenLines
import QueryBook.Proofs.ScalarReadings

/-!
# Comments are not looked for in scalars

The lines of a scalar behind its first are hidden from the search for comments, and so is the first
line of a block that holds a marker. This ties the reader of scalars, which goes over characters, to
the search for closing quotes and for the indentation of blocks, which goes over lines.
-/

namespace QueryBook

open Yaml

variable {lines : List (List Char)}

/-! ## Closing quotes -/

namespace Yaml.Quoted

variable {single : Bool} {w : List Char} {c c' : Cursor}

/-- What a character is written as holds no closing quote. -/
theorem IsItem.closesQuote (h : IsItem single w) (rest : List Char) :
    Document.closesQuote single (w ++ rest) = Document.closesQuote single rest := by
  cases h with
  | doubled => rfl
  | @single ch quote =>
    by_cases hbackslash : ch = '\\'
    · subst hbackslash
      cases rest <;> rfl
    · rw [List.singleton_append, Document.closesQuote]
      · simp [quote]
      · rintro rest' rfl
        exact absurd rfl quote
      · rintro c' rest' rfl
        exact absurd rfl hbackslash
  | double quote backslash =>
    rw [List.singleton_append, Document.closesQuote_cons backslash, decide_eq_false quote,
      Bool.false_or]
  | @escape ch ds digits =>
    -- the digits of an escape are neither quotes nor backslashes
    have hdigits : Document.closesQuote false (ds ++ rest) = Document.closesQuote false rest := by
      induction ds with
      | nil => rfl
      | cons d ds ih =>
        rw [List.forall_mem_cons] at digits
        have hne (x : Char) (hx : hexValue? x = none) : d ≠ x := by
          rintro rfl
          rw [hx] at digits
          cases digits.1
        rw [List.cons_append, Document.closesQuote_cons (hne '\\' (by decide)),
          decide_eq_false (hne '"' (by decide)), Bool.false_or, ih digits.2]
    rw [List.cons_append, List.cons_append, Document.closesQuote]
    exact hdigits

/-- Whether a line is there, and no closing quote is found between a cursor and that line. -/
def StaysOpen (lines : List (List Char)) (single : Bool) (c : Cursor) (line : Nat) : Prop :=
  line ≤ lines.length ∧
    line ≤ c.line + Document.closingLine single (c.ahead lines :: lines.drop c.line)

/-- Where a line closes no quote, the closing quote is looked for from the next on. -/
theorem StaysOpen.next {d : Cursor} {line : Nat} (h : StaysOpen lines single d line)
    (hline : d.line = c.line + 1) (hcolumn : d.column = 0) (hle : d.line ≤ line)
    (hahead : Document.closesQuote single (c.ahead lines) = false) :
    StaysOpen lines single c line := by
  have hlength : c.line < lines.length := by
    have := h.1
    omega
  have hdrop : lines.drop c.line = d.ahead lines :: lines.drop d.line := by
    have hline' : Text.lineAt lines d.line = lines[c.line] := by
      refine Text.lineAt_eq (by omega) ?_
      rw [hline, Nat.add_sub_cancel, List.getElem?_eq_getElem hlength]
    rw [List.drop_eq_getElem_cons hlength, Cursor.ahead, hcolumn, hline', hline, List.drop_zero]
  refine ⟨h.1, ?_⟩
  have hclosing : Document.closingLine single (c.ahead lines :: lines.drop c.line) =
      Document.closingLine single (d.ahead lines :: lines.drop d.line) + 1 := by
    rw [hdrop, Document.closingLine, List.findIdx_cons, hahead]
    rfl
  have := h.2
  omega

/-- A quoted scalar stays open up to its closing quote. -/
theorem Path.staysOpen (h : Path single c c') (hin : c.IsIn lines) :
    StaysOpen lines single c c'.line := by
  induction h with
  | @item c d c' w taken item _ ih =>
    obtain ⟨hd, hahead⟩ := hin.takes taken
    have hline : d.line = c.line := by rw [Cursor.line, taken.mark]; rfl
    obtain ⟨hlength, hle⟩ := ih hd
    refine ⟨hlength, ?_⟩
    rw [Document.closingLine, List.findIdx_cons, hline] at hle
    rwa [hahead, Document.closingLine, List.findIdx_cons, item.closesQuote]
  | @lineBreak c c' ch rest start ends next ih =>
    obtain ⟨hd, hahead⟩ := hin.skipBreak start ends
    have hle : c.skipBreak.line ≤ c'.line := by
      have := next.crosses.forward
      omega
    exact (ih hd).next rfl rfl hle (by rw [hahead]; rfl)
  | @joined c c' ch rest double start ends next ih =>
    have hrest : (c.skip 1).rest = ch :: rest := by rw [Cursor.rest_skip, start]; rfl
    obtain ⟨hskip, hahead⟩ := hin.takes (Cursor.takes_cons true start rfl)
    obtain ⟨hd, hahead'⟩ := hskip.skipBreak hrest ends
    have hle : (c.skip 1).skipBreak.line ≤ c'.line := by
      have := next.crosses.forward
      omega
    refine (ih hd).next rfl rfl hle ?_
    rw [hahead, hahead', double]
    rfl
  | @close c rest start =>
    have htaken : c.Takes [if single then '\'' else '"'] (c.skip 1) := by
      refine Cursor.takes_cons true start ?_
      cases single <;> rfl
    have hahead := (hin.takes htaken).2
    refine ⟨?_, Nat.le_add_right _ _⟩
    -- the quote is read on this line, so there is such a line
    by_contra hlength
    have hlength : lines.length < c.line := Nat.lt_of_not_le hlength
    rw [Cursor.ahead, Text.lineAt_eq_nil hlength, List.drop_nil] at hahead
    cases hahead

end Yaml.Quoted

/-! ## Indentation of blocks -/

namespace Yaml.Block

variable {c c' : Cursor} {indent : Nat} {text : List Char} {line column : Nat}

/-- Whether all characters of the line before a cursor are spaces. -/
def IsSpaced (lines : List (List Char)) (c : Cursor) : Prop :=
  ∀ column < c.column, (Text.lineAt lines c.line)[column]? = some ' '

/-- Between the end of a line and the text behind an indentation there are only spaces. -/
theorem Indents.spaces (h : Indents c c') (hin : c.IsIn lines) (hspaced : IsSpaced lines c) :
    IsSpaced lines c' ∧ ∀ line, c.line ≤ line → line < c'.line →
      ∀ ch ∈ Text.lineAt lines line, ch = ' ' := by
  induction h with
  | done c => exact ⟨hspaced, fun line hle hlt => absurd hlt (Nat.not_lt.mpr hle)⟩
  | @space c c' rest start _ ih =>
    have htaken := Cursor.takes_cons false start rfl
    refine ih (hin.takes htaken).1 fun column hcolumn => ?_
    by_cases hlt : column < c.column
    · exact hspaced column hlt
    · have hnew : c.skipWhite.column = c.column + 1 := rfl
      obtain rfl : column = c.column := by omega
      exact hin.getElem?_takes htaken Nat.zero_lt_one
  | @lineBreak c c' ch rest start ends _ ih =>
    obtain ⟨hd, hahead⟩ := hin.skipBreak start ends
    obtain ⟨hspaced', hlines⟩ := ih hd fun column hcolumn => absurd hcolumn (Nat.not_lt_zero _)
    refine ⟨hspaced', fun line hle hlt x hx => ?_⟩
    have hline : c.skipBreak.line = c.line + 1 := rfl
    by_cases heq : line = c.line
    · subst heq
      obtain ⟨column, hcolumn, rfl⟩ := List.getElem_of_mem hx
      rw [Cursor.ahead, List.drop_eq_nil_iff] at hahead
      have := hspaced column (by omega)
      rw [List.getElem?_eq_getElem hcolumn] at this
      exact Option.some.inj this
    · exact hlines line (by omega) hlt x hx

/-- A line whose text begins behind the indentation is in the block. -/
theorem isInBlock_of_isSpaced (h : IsSpaced lines c) (hcolumn : c.column = indent) :
    Document.isInBlock indent (Text.lineAt lines c.line) = true := by
  have hspaces (n : Nat) (l : List Char) (hl : ∀ column < n, l[column]? = some ' ') :
      n ≤ (l.takeWhile (· = ' ')).length := by
    induction n generalizing l with
    | zero => exact Nat.zero_le _
    | succ n ih =>
      cases l with
      | nil => exact absurd (hl 0 (Nat.succ_pos n)) nofun
      | cons x l =>
        obtain rfl : x = ' ' := Option.some.inj (hl 0 (Nat.succ_pos n))
        have := ih l fun column hlt => hl (column + 1) (Nat.succ_lt_succ hlt)
        simpa using this
  rw [Document.isInBlock, Bool.or_eq_true, decide_eq_true_eq]
  exact .inr (hcolumn ▸ hspaces c.column _ h)

/-- A line of spaces is in every block. -/
theorem isInBlock_of_spaces {l : List Char} (h : ∀ ch ∈ l, ch = ' ') :
    Document.isInBlock indent l = true := by
  rw [Document.isInBlock, Bool.or_eq_true, List.all_eq_true]
  refine .inl fun ch hch => ?_
  rw [h ch hch]
  decide

/-- Text that is taken from a line is the only text before the place behind it. -/
theorem mem_of_takes {w : List Char} {d : Cursor} (hin : c.IsIn lines) (taken : c.Takes w d)
    (hbefore : ¬ c.IsPast line column) (hpast : d.IsPast line column) {ch : Char}
    (hch : (Text.lineAt lines line)[column]? = some ch) : line = c.line ∧ ch ∈ w := by
  have hline : d.line = c.line := by rw [Cursor.line, taken.mark]; rfl
  have hcolumn : d.column = c.column + w.length := by rw [Cursor.column, taken.mark]; rfl
  unfold Cursor.IsPast at hbefore hpast
  obtain rfl : line = c.line := by omega
  obtain ⟨i, rfl⟩ := Nat.exists_eq_add_of_le (show c.column ≤ column by omega)
  rw [hin.getElem?_takes taken (by omega)] at hch
  exact ⟨rfl, List.mem_of_getElem? hch⟩

/-- A marker in the lines of a block is in its text, and the lines down to it are in the block. -/
theorem Path.marker (h : Path indent text c c') (hin : c.IsIn lines)
    (hbefore : ¬ c.IsPast line column) (hpast : c'.IsPast line column)
    (hmarker : (Text.lineAt lines line)[column]? = some '#') :
    '#' ∈ text ∧ c.column = indent ∧
      ∀ l, c.line < l → l ≤ line → Document.isInBlock indent (Text.lineAt lines l) = true := by
  induction h with
  | stop c => exact absurd hpast hbefore
  | @last c d w hcolumn taken kept =>
    obtain ⟨rfl, hmem⟩ := mem_of_takes hin taken hbefore hpast hmarker
    exact ⟨kept hmem, hcolumn, fun l hlt hle => absurd hlt (Nat.not_lt.mpr hle)⟩
  | @line c d e c' w ch rest hcolumn taken kept start ends indents next ih =>
    obtain ⟨hd, -⟩ := hin.takes taken
    obtain ⟨hbreak, hahead⟩ := hd.skipBreak start ends
    have hline : d.line = c.line := by rw [Cursor.line, taken.mark]; rfl
    by_cases hfirst : d.IsPast line column
    · obtain ⟨rfl, hmem⟩ := mem_of_takes hin taken hbefore hfirst hmarker
      exact ⟨kept hmem, hcolumn, fun l hlt hle => absurd hlt (Nat.not_lt.mpr hle)⟩
    · obtain ⟨hspaced, hspaces⟩ := indents.spaces hbreak fun column hcolumn =>
        absurd hcolumn (Nat.not_lt_zero _)
      have hnext : d.skipBreak.line = d.line + 1 := rfl
      -- nothing is left of the line, and only spaces come before the next
      have hlater : ¬ e.IsPast line column := by
        intro hpast
        have hmem := List.mem_of_getElem? hmarker
        rcases hpast with hlt | ⟨rfl, hlt⟩
        · by_cases heq : line = d.line
          · subst heq
            rw [Cursor.ahead, List.drop_eq_nil_iff] at hahead
            unfold Cursor.IsPast at hfirst
            rw [List.getElem?_eq_none (by omega)] at hmarker
            cases hmarker
          · have hge : d.skipBreak.line ≤ line := by
              unfold Cursor.IsPast at hfirst
              omega
            exact absurd (hspaces line hge hlt _ hmem) (by decide)
        · rw [hspaced column hlt] at hmarker
          cases hmarker
      obtain ⟨htext, hindent, hlines⟩ := ih (hbreak.crosses indents.passes.crosses) hlater hpast
      refine ⟨htext, hcolumn, fun l hlt hle => ?_⟩
      rcases Nat.lt_trichotomy l e.line with hl | rfl | hl
      · exact isInBlock_of_spaces (hspaces l (by omega) hl)
      · exact isInBlock_of_isSpaced hspaced hindent
      · exact hlines l hl hle

end Yaml.Block

/-! ## Hidden lines -/

namespace Document

/-- Lines are taken as long as they have a property. -/
theorem le_length_takeWhile {p : List Char → Bool} {first last : Nat}
    (h : ∀ line, first < line → line ≤ last → p (Text.lineAt lines line) = true)
    (hlast : last ≤ lines.length) : last ≤ first + ((lines.drop first).takeWhile p).length := by
  induction hn : last - first generalizing first with
  | zero => omega
  | succ n ih =>
    have hfirst : first < lines.length := by omega
    have hline : Text.lineAt lines (first + 1) = lines[first] :=
      Text.lineAt_eq (Nat.succ_ne_zero _) (List.getElem?_eq_getElem hfirst)
    have hp := h (first + 1) (Nat.lt_succ_self _) (by omega)
    rw [hline] at hp
    have hle := @ih (first + 1) (fun line hlt => h line (by omega)) (by omega)
    rw [List.drop_eq_getElem_cons hfirst, List.takeWhile_cons_of_pos hp, List.length_cons]
    omega

/-- Whether a line is hidden by an event. -/
def IsHiddenBy (lines : List (List Char)) (e : Event) (line : Nat) : Prop :=
  ∃ first last, hiddenLines? lines e = some (first, last) ∧ first ≤ line ∧ line ≤ last

/-- The lines of a quoted scalar behind its first are hidden. -/
theorem isHiddenBy_quoted {single : Bool} {indent : Int} {c c' : Cursor} {read : List Char}
    {text : String} {anchor : Option Nat} {line : Nat} (hin : c.IsIn lines)
    (start : c.next? = some (if single then '\'' else '"'))
    (body : Quoted.body single indent {} (c.skip 1) = some (read, c'))
    (hfirst : c.line < line) (hlast : line ≤ c'.line) :
    IsHiddenBy lines ⟨.scalar text (if single then .singleQuoted else .doubleQuoted) anchor,
      c.mark.position⟩ line := by
  obtain ⟨rest, hrest⟩ := List.head?_eq_some_iff.mp start
  have htaken : c.Takes [if single then '\'' else '"'] (c.skip 1) := by
    refine Cursor.takes_cons true hrest ?_
    cases single <;> rfl
  obtain ⟨hlength, hclosing⟩ := (Quoted.path_of_body body).staysOpen (hin.takes htaken).1
  -- the scan for the closing quote begins behind the opening one, as the body does
  have hlines : (lines.drop (c.line - 1)).modifyHead (·.drop (c.column + 1)) =
      (c.skip 1).ahead lines :: lines.drop c.line := by
    have hpos := hin.line_pos
    have hlt : c.line - 1 < lines.length := by omega
    have hline : Text.lineAt lines c.line = lines[c.line - 1] :=
      Text.lineAt_eq (by omega) (List.getElem?_eq_getElem hlt)
    rw [List.drop_eq_getElem_cons hlt, List.modifyHead_cons, Nat.sub_add_cancel hpos, ← hline]
    rfl
  have hquoted : quotedLines lines c.mark.position single =
      (c.line + 1, min (c.line + closingLine single ((c.skip 1).ahead lines :: lines.drop c.line))
        lines.length) := by
    rw [← hlines]
    rfl
  have hhidden : hiddenLines? lines ⟨.scalar text
      (if single then .singleQuoted else .doubleQuoted) anchor, c.mark.position⟩ =
        some (quotedLines lines c.mark.position single) := by
    cases single <;> rfl
  refine ⟨_, _, hhidden.trans (congrArg some hquoted), hfirst, ?_⟩
  exact Nat.le_min.mpr ⟨hlast.trans hclosing, hlast.trans hlength⟩

/-- The lines of a block down to a marker are hidden. -/
theorem isHiddenBy_block {literal : Bool} {indent : Nat} {c c' : Cursor} {read : List Char}
    {anchor : Option Nat} {line column : Nat} (hin : c.IsIn lines)
    (hpath : Block.Path indent read c c') (hbefore : ¬ c.IsPast line column)
    (hpast : c'.IsPast line column) (hmarker : (Text.lineAt lines line)[column]? = some '#') :
    IsHiddenBy lines ⟨.scalar (String.ofList read) (if literal then .literal else .folded) anchor,
      c.mark.position⟩ line := by
  obtain ⟨htext, hcolumn, hlines⟩ := hpath.marker hin hbefore hpast hmarker
  have hblank : Text.isAllBlank (String.ofList read) = false := by
    rw [Text.isAllBlank, String.toList_ofList, List.all_eq_false]
    exact ⟨'#', htext, by decide⟩
  have hlength : line ≤ lines.length := by
    by_contra hlength
    rw [Text.lineAt_eq_nil (by omega)] at hmarker
    cases hmarker
  have hhidden : hiddenLines? lines ⟨.scalar (String.ofList read)
      (if literal then .literal else .folded) anchor, c.mark.position⟩ =
        some (c.line, c.line + ((lines.drop c.line).takeWhile (isInBlock indent)).length) := by
    have hblock : blockLines? lines c.mark.position (String.ofList read) =
        some (c.line, c.line + ((lines.drop c.line).takeWhile (isInBlock indent)).length) := by
      rw [blockLines?, hblank, ← hcolumn]
      rfl
    cases literal
    all_goals exact hblock
  refine ⟨_, _, hhidden, ?_, le_length_takeWhile hlines hlength⟩
  unfold Cursor.IsPast at hbefore
  omega

end Document

/-! ## Scalars that hold markers -/

namespace Yaml.ScalarReading

variable {r : ScalarReading} {c : Cursor} {line column : Nat}

/-- The event of a scalar. -/
def event (r : ScalarReading) (anchor : Option Nat) : Event :=
  ⟨.scalar r.text r.style anchor, r.position⟩

/-- A marker in a scalar that covers it is behind the quote on the first line of a quoted scalar, or
its line is hidden. -/
theorem EndsAt.marker (hr : r.EndsAt c) (hin : r.lexer.cursor.IsIn lines)
    (hcovers : r.Covers line column) (hmarker : (Text.lineAt lines line)[column]? = some '#')
    (anchor : Option Nat) :
    (r.IsQuoted ∧ ∃ column' < column, ∃ quote, (quote = '\'' ∨ quote = '"') ∧
      (Text.lineAt lines line)[column']? = some quote) ∨
      Document.IsHiddenBy lines (r.event anchor) line := by
  cases hr with
  | plain => exact absurd rfl hcovers.1
  | @quoted s single text c' c start body behind =>
    have hspans := Cursor.spans_iff.mp ((holds_quoted body).mp hcovers.2)
    obtain ⟨rest, hrest⟩ := List.head?_eq_some_iff.mp start
    have htaken : s.cursor.Takes [if single then '\'' else '"'] (s.cursor.skip 1) := by
      refine Cursor.takes_cons true hrest ?_
      cases single <;> rfl
    have hquote := hin.getElem?_takes htaken Nat.zero_lt_one
    -- on its first line the opening quote is in front of the marker
    by_cases hline : line = s.cursor.line
    · subst hline
      rw [Nat.add_zero, List.getElem?_cons_zero] at hquote
      refine .inl ⟨?_, s.cursor.column, ?_, _, ?_, hquote⟩
      · cases single
        · exact .inr rfl
        · exact .inl rfl
      · -- the quote itself is no marker
        have hbefore := hspans.1
        unfold Cursor.IsPast at hbefore
        refine Nat.lt_of_le_of_ne (by omega) ?_
        rintro rfl
        rw [hmarker] at hquote
        cases single <;> cases hquote
      · cases single
        · exact .inr rfl
        · exact .inl rfl
    · refine .inr (Document.isHiddenBy_quoted hin start body ?_ ?_)
      · have := hspans.1
        unfold Cursor.IsPast at this
        omega
      · have := hspans.2
        unfold Cursor.IsPast at this
        omega
  | @block s literal text mark c start read =>
    obtain ⟨hlater, hspans⟩ := (holds_block read).mp hcovers.2
    rcases Block.read_eq_some read with ⟨rfl, -⟩ |
      ⟨d, e, indent, hpassed, -, hindents, -, rfl, hpath⟩
    · exact absurd hlater (Nat.lt_irrefl _)
    · have hin' := hin.crosses ((passes_indicator start).trans
        (hpassed.trans hindents.passes)).crosses
      obtain ⟨hbefore, hpast⟩ := Cursor.spans_iff.mp hspans
      exact .inr (Document.isHiddenBy_block hin' hpath hbefore hpast hmarker)

/-- The indicator of a literal block with text stands on the last line above the text that is not
made of spaces. -/
theorem EndsAt.indicator (hr : r.EndsAt c) (hin : r.lexer.cursor.IsIn lines)
    (hstyle : r.style = .literal) (htext : ∃ ch ∈ r.text.toList, ch ≠ '\n') :
    (Text.lineAt lines r.lexer.cursor.line)[r.lexer.cursor.column]? = some '|' ∧
      r.lexer.cursor.line < r.position.line ∧
      ∀ line, r.lexer.cursor.line < line → line < r.position.line →
        ∀ ch ∈ Text.lineAt lines line, ch = ' ' := by
  cases hr with
  | plain => cases hstyle
  | @quoted s single => cases single <;> cases hstyle
  | @block s literal text mark c start read =>
    obtain rfl : literal = true := by
      cases literal
      · cases hstyle
      · rfl
    obtain ⟨rest, hrest⟩ := List.head?_eq_some_iff.mp start
    have hbar := hin.getElem?_takes (Cursor.takes_cons true hrest rfl) Nat.zero_lt_one
    refine ⟨hbar, ?_⟩
    rcases Block.read_eq_some read with ⟨-, -, hfeeds⟩ |
      ⟨d, e, indent, hpassed, ⟨hcolumn, hline⟩, hindents, -, rfl, -⟩
    · rw [String.toList_ofList] at htext
      obtain ⟨ch, hch, hne⟩ := htext
      exact absurd (hfeeds ch hch) hne
    · have hd := hin.crosses ((passes_indicator start).trans hpassed).crosses
      have hspaces := (hindents.spaces hd fun column hlt => by
        rw [hcolumn] at hlt
        exact absurd hlt (Nat.not_lt_zero _)).2
      have hlater := hindents.passes.crosses.forward
      have habove : s.cursor.line < e.line := by omega
      exact ⟨habove, fun line (hle : s.cursor.line < line) hlt => hspaces line (by omega) hlt⟩

end Yaml.ScalarReading

end QueryBook
