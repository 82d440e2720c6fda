import QueryBook.Proofs.Places

/-!
# The places of scalars

A place in a source is a line, counted from 1, and the number of characters before it on the line.
The lexer reads scalars one after the other, and each holds the characters that its reader takes for
it: the words of a plain scalar, a quoted scalar with its quotes, the lines of a block. Words hold
no markers; quotes and blocks cover all places between their first and their last.
-/

namespace QueryBook.Yaml

/-! ## Scalars -/

/-- Whether a place is in a word of the plain scalar at a cursor. -/
inductive Plain.InWord (inFlow : Bool) (indent : Int) : Cursor → Nat → Nat → Prop
  /-- The place is in the first word. -/
  | first {c : Cursor} {k : Nat} (starts : endsAt c = false)
    (inside : k < (word inFlow c.rest).length) : InWord inFlow indent c c.line (c.column + k)
  /-- The scalar goes on behind the first word, and the place is in a word there. -/
  | later {c c' : Cursor} {gap : Gap} {line column : Nat} (starts : endsAt c = false)
    (nonempty : word inFlow c.rest ≠ [])
    (behind : skipGap indent {} (c.skip (word inFlow c.rest).length) = some (gap, c'))
    (goesOn : gap ≠ {} ∧ (inFlow = true ∨ indent ≤ c'.column))
    (inside : InWord inFlow indent c' line column) : InWord inFlow indent c line column

/-- A scalar as it is read. -/
structure ScalarReading where
  style : Style
  text : String
  /-- The position of its token. -/
  position : Position
  /-- The state of the lexer at the first character of the scalar. -/
  lexer : Lexer

namespace ScalarReading

/-- The token of the scalar. -/
def token (r : ScalarReading) : Token := ⟨.scalar r.style r.text, r.position⟩

/-- Whether the scalar is written in quotes. -/
def IsQuoted (r : ScalarReading) : Prop := r.style = .singleQuoted ∨ r.style = .doubleQuoted

/-- Whether a character belongs to the scalar in these quotes at the lexer's place. -/
def HoldsQuoted (single : Bool) (s : Lexer) (line column : Nat) : Prop :=
  ∃ text c, Quoted.body single s.indent {} (s.cursor.skip 1) = some (text, c) ∧
    s.mark.Spans c.mark line column

/-- Whether a character belongs to the lines of the block at the lexer's place. -/
def HoldsBlock (literal : Bool) (s : Lexer) (line column : Nat) : Prop :=
  ∃ text mark c, Block.read literal s.dropLooseIndents.indent s.cursor = some (text, mark, c) ∧
    s.mark.line < mark.line ∧ mark.Spans c.mark line column

/-- Whether the character at a place belongs to the scalar. -/
def Holds (r : ScalarReading) : Nat → Nat → Prop :=
  match r.style with
  | .plain => Plain.InWord r.lexer.inFlow (r.lexer.dropLooseIndents.indent + 1) r.lexer.cursor
  | .singleQuoted => HoldsQuoted true r.lexer
  | .doubleQuoted => HoldsQuoted false r.lexer
  | .literal => HoldsBlock true r.lexer
  | .folded => HoldsBlock false r.lexer

/-- Whether the scalar covers a place: it holds it whatever character stands there. -/
def Covers (r : ScalarReading) (line column : Nat) : Prop :=
  r.style ≠ .plain ∧ r.Holds line column

/-- Whether a scalar is read as it is written at its lexer's place, up to a cursor behind it. -/
inductive EndsAt : ScalarReading → Cursor → Prop
  | plain {s : Lexer} {text : List Char} {gap : Gap} {c : Cursor}
    (words : Plain.words s.inFlow (s.dropLooseIndents.indent + 1) {} s.cursor =
      some (text, gap, c)) :
    EndsAt ⟨.plain, String.ofList text, s.mark.position, s⟩ c
  | quoted {s : Lexer} {single : Bool} {text : List Char} {c c' : Cursor}
    (start : s.cursor.next? = some (if single then '\'' else '"'))
    (body : Quoted.body single s.indent {} (s.cursor.skip 1) = some (text, c))
    (behind : c.Passes c') :
    EndsAt ⟨if single then .singleQuoted else .doubleQuoted, String.ofList text, s.mark.position, s⟩
      c'
  | block {s : Lexer} {literal : Bool} {text : List Char} {mark : Mark} {c : Cursor}
    (start : s.cursor.next? = some (if literal then '|' else '>'))
    (read : Block.read literal s.dropLooseIndents.indent s.cursor = some (text, mark, c)) :
    EndsAt ⟨if literal then .literal else .folded, String.ofList text, mark.position, s⟩ c

/-- A scalar that is no block has the position of its first character. -/
theorem EndsAt.position_eq {r : ScalarReading} {c : Cursor} (hr : r.EndsAt c)
    (hstyle : r.style ≠ .literal ∧ r.style ≠ .folded) : r.position = r.lexer.mark.position := by
  cases hr with
  | plain | quoted => rfl
  | @block s literal => cases literal <;> simp at hstyle

end ScalarReading

/-! ## Readings -/

/-- Whether a token is a scalar. -/
def Token.isScalar (t : Token) : Bool :=
  match t.kind with
  | .scalar .. => true
  | _ => false

namespace Lexer

/-- The state in which the next token is read. -/
def ahead (s : Lexer) : Option Lexer := do
  let s ← s.skipToToken
  let s ← s.dropStaleKeys
  some (s.closeBlocks s.column)

/-- The scalar that is read from a state at its first character to the next state, if it is one. -/
def scalarTo (s next : Lexer) : List ScalarReading :=
  match next.emitted with
  | ⟨.scalar style text, position⟩ :: _ => [⟨style, text, position, s⟩]
  | _ => []

/-- The scalar that is read in a step to the next state, if it is one. -/
def readingTo (s next : Lexer) : List ScalarReading :=
  match s.ahead with
  | some lexer => lexer.scalarTo next
  | none => []

/-- The scalars that are read from a state on, in order. -/
def readings (s : Lexer) : List ScalarReading :=
  match s.dropStaleKeys with
  | none => []
  | some current =>
    match current.step with
    | some (.more next) =>
      if next.cursor.rest.length < s.cursor.rest.length then
        current.readingTo next ++ next.readings
      else []
    | _ => []
termination_by s.cursor.rest.length

end Lexer

/-! ## Places of a scalar -/

open Cursor

variable {lines : List (List Char)} {c c' : Cursor} {covered held held' : Nat → Nat → Prop}

theorem Cursor.Separates.mono (h : c.Separates lines covered held)
    (hheld : ∀ line column, held' line column → held line column) :
    c.Separates lines covered held' where
  past := fun line column hh => h.past line column (hheld line column hh)
  apart := fun line column hmarker hpast =>
    (h.apart line column hmarker hpast).imp_right fun hfree =>
      ⟨fun column' hle hh => hfree.1 column' hle (hheld line column' hh), hfree.2⟩

/-- More can be covered. -/
theorem Cursor.Separates.covers {covered' : Nat → Nat → Prop} (h : c.Separates lines covered held)
    (hcovered : ∀ line column, covered line column → covered' line column) :
    c.Separates lines covered' held where
  past := h.past
  apart := fun line column hmarker hpast =>
    (h.apart line column hmarker hpast).imp_left (hcovered line column)

namespace Plain

variable {inFlow : Bool} {indent : Int} {gap gap' : Gap} {text : List Char} {line column : Nat}

/-- Whether a place is in the first word at a cursor. -/
def InFirstWord (inFlow : Bool) (c : Cursor) (line column : Nat) : Prop :=
  line = c.line ∧ ∃ k < (word inFlow c.rest).length, column = c.column + k

/-- A place in a scalar is in its first word, or the scalar goes on and the place is behind it. -/
theorem InWord.cases (h : InWord inFlow indent c line column)
    (behind : skipGap indent {} (c.skip (word inFlow c.rest).length) = some (gap, c')) :
    InFirstWord inFlow c line column ∨
      (gap ≠ {} ∧ (inFlow = true ∨ indent ≤ c'.column)) ∧ InWord inFlow indent c' line column := by
  cases h with
  | first starts inside => exact .inl ⟨rfl, _, inside, rfl⟩
  | later starts nonempty behind' goesOn inside =>
    rw [behind] at behind'
    cases behind'
    exact .inr ⟨goesOn, inside⟩

/-- Where a scalar is over, no place is in it. -/
theorem InWord.starts (h : InWord inFlow indent c line column) :
    endsAt c = false ∧ word inFlow c.rest ≠ [] := by
  cases h with
  | first starts inside => exact ⟨starts, List.ne_nil_of_length_pos (by omega)⟩
  | later starts nonempty => exact ⟨starts, nonempty⟩

/-- A word and what follows it up to the next hold no marker. -/
theorem separates_word (hin : c.IsIn lines) (h : c.Separates lines covered held)
    (starts : endsAt c = false)
    (behind : skipGap indent {} (c.skip (word inFlow c.rest).length) = some (gap, c')) :
    c'.IsIn lines ∧ c'.Separates lines covered fun line column =>
      held line column ∨ InFirstWord inFlow c line column := by
  have htaken := takes_word inFlow c
  have hin' := (hin.takes htaken).1
  have hword : (c.skip (word inFlow c.rest).length).Separates lines covered fun line column =>
      held line column ∨ InFirstWord inFlow c line column := by
    refine h.takes htaken (fun i hi => ?_) fun line column hheld => hheld
    exact hin.not_isMarker htaken (fun ch hch => ((word_spec inFlow c.rest).2 ch hch).1)
      (head?_word starts) hi
  exact ⟨hin'.crosses (passes_skipGap behind).crosses, hword.passes hin' (passes_skipGap behind)⟩

/-- The words of a plain scalar hold no marker. -/
theorem separates_words (hin : c.IsIn lines) (h : c.Separates lines covered held)
    (hwords : words inFlow indent gap c = some (text, gap', c')) :
    c'.Separates lines covered fun line column =>
      held line column ∨ InWord inFlow indent c line column := by
  fun_induction words inFlow indent gap c generalizing text held
  case case1 gap c hends =>
    cases hwords
    refine h.mono fun line column hheld => hheld.resolve_right fun hword => ?_
    rw [hword.starts.1] at hends
    cases hends
  case case3 gap c hends hflow w hempty =>
    cases hwords
    refine h.mono fun line column hheld => hheld.resolve_right fun hword => ?_
    exact hword.starts.2 (List.isEmpty_iff.mp hempty)
  case case5 gap c hends hflow w hne c₁ gap₁ c₂ hgap hlast =>
    cases hwords
    have hword := (separates_word hin h (by simpa using hends) hgap).2
    refine hword.mono fun line column hheld => hheld.imp_right fun hheld => ?_
    refine (hheld.cases hgap).resolve_right fun hlater => ?_
    obtain ⟨⟨hbroken, hindent⟩, -⟩ := hlater
    -- the scalar does not go on here
    simp only [hbroken, decide_false, Bool.false_or, Bool.and_eq_true, Bool.not_eq_true',
      decide_eq_true_eq] at hlast
    rcases hindent with hflow | hle
    · rw [hflow] at hlast
      cases hlast.1
    · omega
  case case6 gap c hends hflow w hne c₁ gap₁ c₂ hgap hlast hlt ih =>
    obtain ⟨⟨text', last, final⟩, hrest, hwords⟩ := Option.map_eq_some_iff.mp hwords
    cases hwords
    obtain ⟨hin', hword⟩ := separates_word hin h (by simpa using hends) hgap
    refine (ih hin' hword hrest).mono fun line column hheld => ?_
    rcases hheld with hheld | hheld
    · exact .inl (.inl hheld)
    · exact (hheld.cases hgap).elim (fun hfirst => .inl (.inr hfirst)) fun hlater => .inr hlater.2
  all_goals cases hwords

end Plain

namespace ScalarReading

variable {r : ScalarReading}

/-- A quoted scalar is crossed with its quotes. -/
theorem crosses_quoted {single : Bool} {indent : Int} {text : List Char}
    (start : c.next? = some (if single then '\'' else '"'))
    (body : Quoted.body single indent {} (c.skip 1) = some (text, c')) : c.Crosses c' := by
  obtain ⟨rest, hrest⟩ := List.head?_eq_some_iff.mp start
  have hquote : c.Crosses (c.skip 1) := by
    refine (takes_cons true hrest ?_).crosses
    cases single <;> rfl
  exact hquote.trans (Quoted.path_of_body body).crosses

/-- The indicator of a block is passed. -/
theorem passes_indicator {literal : Bool} (start : c.next? = some (if literal then '|' else '>')) :
    c.Passes (c.skip 1) := by
  obtain ⟨rest, hrest⟩ := List.head?_eq_some_iff.mp start
  cases literal
  all_goals exact passes_skip_one hrest rfl rfl (by decide)

/-- A scalar is crossed from its first character on. -/
theorem EndsAt.crosses (h : r.EndsAt c) : r.lexer.cursor.Crosses c := by
  cases h with
  | plain words => exact (Plain.passes_words words).crosses
  | quoted start body behind => exact (crosses_quoted start body).trans behind.crosses
  | block start read =>
    refine (passes_indicator start).crosses.trans ?_
    rcases Block.read_eq_some read with ⟨-, hpassed, -⟩ |
      ⟨d, e, indent, hpassed, -, hindents, -, -, hpath⟩
    · exact hpassed.crosses
    · exact (hpassed.crosses.trans hindents.passes.crosses).trans hpath.crosses

/-- A quoted scalar holds what lies between its quotes. -/
theorem holds_quoted {s : Lexer} {single : Bool} {text : List Char} {c : Cursor} {text' : String}
    {position : Position} {line column : Nat}
    (body : Quoted.body single s.indent {} (s.cursor.skip 1) = some (text, c)) :
    (ScalarReading.mk (if single then .singleQuoted else .doubleQuoted) text' position s).Holds
      line column ↔ s.mark.Spans c.mark line column := by
  have hiff : HoldsQuoted single s line column ↔ s.mark.Spans c.mark line column := by
    refine ⟨fun ⟨text', d, hbody, hspans⟩ => ?_, fun hspans => ⟨text, c, body, hspans⟩⟩
    rw [body] at hbody
    cases hbody
    exact hspans
  cases single
  all_goals exact hiff

/-- A block holds what lies between the first character of its lines and their end. -/
theorem holds_block {s : Lexer} {literal : Bool} {text : List Char} {mark : Mark} {c : Cursor}
    {text' : String} {position : Position} {line column : Nat}
    (read : Block.read literal s.dropLooseIndents.indent s.cursor = some (text, mark, c)) :
    (ScalarReading.mk (if literal then .literal else .folded) text' position s).Holds line column ↔
      s.mark.line < mark.line ∧ mark.Spans c.mark line column := by
  have hiff : HoldsBlock literal s line column ↔
      s.mark.line < mark.line ∧ mark.Spans c.mark line column := by
    refine ⟨fun ⟨text', mark', d, hread, hspans⟩ => ?_, fun hspans => ⟨text, mark, c, read, hspans⟩⟩
    rw [read] at hread
    cases hread
    exact hspans
  cases literal
  all_goals exact hiff

/-- What is known of the places before a scalar is known of those behind it, with its own. -/
theorem EndsAt.separates (hin : r.lexer.cursor.IsIn lines)
    (h : r.lexer.cursor.Separates lines covered held) (hr : r.EndsAt c) :
    c.Separates lines (fun line column => covered line column ∨ r.Covers line column)
      (fun line column => held line column ∨ r.Holds line column) := by
  cases hr with
  | plain words => exact (Plain.separates_words hin h words).covers fun _ _ => .inl
  | @quoted s single text c' c start body behind =>
    have hcrossed := crosses_quoted start body
    have hcover := h.cover hcrossed (by rw [start]; cases single <;> rfl)
    refine ((hcover.passes (hin.crosses hcrossed) behind).mono fun line column hheld => ?_).covers
      fun line column hcovered => ?_
    · exact hheld.imp_right (holds_quoted body).mp
    · refine hcovered.imp_right fun hspans => ⟨?_, (holds_quoted body).mpr hspans⟩
      intro hstyle
      cases single <;> cases hstyle
  | @block s literal text mark c start read =>
    have hpassed := passes_indicator start
    rcases Block.read_eq_some read with ⟨hmark, hpassed', -⟩ |
      ⟨d, e, indent, hpassed', ⟨-, hline⟩, hindents, ⟨ch, rest, hrest, hbreak⟩, hmark, hpath⟩
    · refine ((h.passes hin (hpassed.trans hpassed')).mono fun line column hheld => ?_).covers
        fun _ _ => .inl
      refine hheld.resolve_right fun hheld => ?_
      have hline := ((holds_block read).mp hheld).1
      rw [hmark] at hline
      exact absurd hline (Nat.lt_irrefl _)
    · have hbefore := (hpassed.trans hpassed').trans hindents.passes
      -- the lines of the block begin behind that of its indicator
      have hlater : s.mark.line < mark.line := by
        have hforward := hindents.passes.crosses.forward
        rw [hmark]
        change s.cursor.line < e.line
        omega
      have hcover := (h.passes hin hbefore).cover hpath.crosses (by rw [next?, hrest]; exact hbreak)
      rw [← hmark] at hcover
      refine (hcover.mono fun line column hheld => ?_).covers fun line column hcovered => ?_
      · exact hheld.imp_right fun hheld => ((holds_block read).mp hheld).2
      · refine hcovered.imp_right fun hspans => ⟨?_, (holds_block read).mpr ⟨hlater, hspans⟩⟩
        intro hstyle
        cases literal <;> cases hstyle

end ScalarReading

end QueryBook.Yaml
