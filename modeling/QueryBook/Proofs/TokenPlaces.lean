import QueryBook.Proofs.LexerInvariant
import QueryBook.Proofs.ScalarLines

/-!
# The places of tokens

What is known of the places before a cursor is carried through the lexer. Scalars and markers are
then told apart wherever it gets, and no token but the start of a mapping stands before a `#` in the
middle of a word.
-/

namespace QueryBook.Yaml

open Cursor

variable {lines : List (List Char)} {c c' : Cursor} {rs : List ScalarReading} {r : ScalarReading}

/-! ## Clear positions -/

/-- Whether no `#` stands at a position unless it is a marker. -/
def IsClear (lines : List (List Char)) (position : Position) : Prop :=
  (Text.lineAt lines position.line)[position.column - 1]? = some '#' →
    IsMarker lines position.line (position.column - 1)

/-- The beginning of a line is clear. -/
theorem isClear_margin (line : Nat) : IsClear lines ⟨line, 1⟩ :=
  fun hmarker => ⟨hmarker, .inl rfl⟩

/-- So is a place where something else comes next. -/
theorem Cursor.IsIn.isClear (hin : c.IsIn lines) (hnext : c.next? ≠ some '#') :
    IsClear lines c.mark.position := by
  intro hmarker
  refine absurd (hin.next?_eq_some ?_ (by decide)) hnext
  rw [ahead, List.head?_drop]
  exact hmarker

/-- So is a place behind the spaces at the beginning of its line. -/
theorem Block.IsSpaced.isClear (h : Block.IsSpaced lines c) : IsClear lines c.mark.position := by
  intro hmarker
  refine ⟨hmarker, ?_⟩
  by_cases hcolumn : c.column = 0
  · exact .inl hcolumn
  · exact .inr ⟨' ', h _ (Nat.sub_lt (Nat.pos_of_ne_zero hcolumn) Nat.one_pos), rfl⟩

/-- The token of a scalar stands at a clear position. -/
theorem ScalarReading.EndsAt.isClear (hr : r.EndsAt c) (hin : r.lexer.cursor.IsIn lines)
    (hnext : r.lexer.cursor.next? ≠ some '#') : IsClear lines r.position := by
  cases hr with
  | plain words => exact hin.isClear hnext
  | quoted start body behind => exact hin.isClear hnext
  | block start read =>
    rcases Block.read_eq_some read with ⟨rfl, -⟩ |
      ⟨d, e, indent, hpassed, ⟨hcolumn, -⟩, hindents, -, rfl, -⟩
    · exact hin.isClear hnext
    · -- the text of a block may begin with a marker
      have hd := hin.crosses ((passes_indicator start).trans hpassed).crosses
      refine (hindents.spaces hd fun column hlt => ?_).1.isClear
      rw [hcolumn] at hlt
      exact absurd hlt (Nat.not_lt_zero _)

/-! ## The run of the lexer -/

/-- What is known of a cursor behind some scalars. -/
structure IsBehind (lines : List (List Char)) (rs : List ScalarReading) (c : Cursor) : Prop where
  isIn : c.IsIn lines
  separates : c.Separates lines (fun line column => ∃ r ∈ rs, r.Covers line column)
    (fun line column => ∃ r ∈ rs, r.Holds line column)
  scalars : ∀ r ∈ rs, r.lexer.cursor.IsIn lines ∧ ∃ c', r.EndsAt c'

/-- What is passed is no scalar. -/
theorem IsBehind.passes (h : IsBehind lines rs c) (hc : c.Passes c') : IsBehind lines rs c' :=
  ⟨h.isIn.crosses hc.crosses, h.separates.passes h.isIn hc, h.scalars⟩

/-- A scalar comes behind others. -/
theorem IsBehind.scalar (h : IsBehind lines rs r.lexer.cursor) (hr : r.EndsAt c) :
    IsBehind lines (rs ++ [r]) c where
  isIn := h.isIn.crosses hr.crosses
  separates := by
    refine ((hr.separates h.isIn h.separates).mono fun line column hheld => ?_).covers
      fun line column hcovered => ?_
    · obtain ⟨r', hr', hholds⟩ := hheld
      rcases List.mem_append.mp hr' with hr' | hr'
      · exact .inl ⟨r', hr', hholds⟩
      · exact .inr (List.mem_singleton.mp hr' ▸ hholds)
    · rcases hcovered with ⟨r', hr', hcovers⟩ | hcovers
      · exact ⟨r', List.mem_append_left _ hr', hcovers⟩
      · exact ⟨r, List.mem_append_right _ List.mem_cons_self, hcovers⟩
  scalars := by
    intro r' hr'
    rcases List.mem_append.mp hr' with hr' | hr'
    · exact h.scalars r' hr'
    · rw [List.mem_singleton.mp hr']
      exact ⟨h.isIn, c, hr⟩

/-- Behind some scalars their places are known, and tokens stand at clear positions. -/
theorem Lexer.isInvariant_isBehind : IsInvariant (IsBehind lines) fun t =>
    t.kind = .flowMappingStart ∨ IsClear lines t.position where
  passes := .passes
  scalar := fun h hnext hr => ⟨h.scalar hr, .inr (hr.isClear h.isIn hnext)⟩
  bare := fun h hnext _ => .inr (h.isIn.isClear hnext)
  anchor := fun h hnext _ _ => .inr (h.isIn.isClear (by rw [hnext]; decide))
  margin := fun line _ => .inr (isClear_margin line)
  pair := fun _ => .inl rfl

/-! ## The start of a source -/

/-- Before anything is read, nothing is behind. -/
theorem isBehind_ofSource (text : List Char) :
    IsBehind (linesOf text) [] (ofSource (text.takeWhile (· ≠ '\x00'))) where
  isIn := by
    refine ⟨[], [], text.dropWhile (· ≠ '\x00'), ?_, rfl, rfl, fun ch hch => ?_⟩
    · exact congrArg linesOf List.takeWhile_append_dropWhile.symm
    · have hnot := List.head?_dropWhile_not (· ≠ '\x00') text
      rw [Option.mem_def.mp hch] at hnot
      simpa using hnot
  separates :=
    (separates_ofSource _ _).mono fun line column ⟨r, hr, _⟩ => absurd hr List.not_mem_nil
  scalars := nofun

/-- The lexer reads the scalars of a source in order; wherever it is, their places are known, and
its tokens stand at clear positions. -/
theorem places_tokens (text : List Char) :
    let readings := (Lexer.ofSource (text.takeWhile (· ≠ '\x00'))).readings
    (∀ t ∈ tokens text, t.kind = .flowMappingStart ∨ IsClear (linesOf text) t.position) ∧
      (tokens text).filter (·.isScalar) <+: readings.map (·.token) ∧
      ∀ n, ∃ c, IsBehind (linesOf text) (readings.take n) c :=
  (Lexer.keeps_ofSource (isBehind_ofSource text)).run Lexer.isInvariant_isBehind

end QueryBook.Yaml
