import QueryBook.Proofs.ReadsBack
import QueryBook.Proofs.ScalarPlaces

/-!
# The texts of scalars without quotes

The text of a plain or block scalar is made of what stands on its lines, line feeds and spaces,
however its lines end. So none of a tree that was read holds a carriage return, or a NUL, where the
source would end.
-/

namespace QueryBook

namespace Yaml

open Cursor

variable {c c' : Cursor} {good : Char → Prop}

/-- Whether a property is one of line feeds, of spaces and of all that stands on the lines from a
place on. -/
structure Offers (c : Cursor) (good : Char → Prop) : Prop where
  feed : good '\n'
  space : good ' '
  line : ∀ ch ∈ c.rest, isBreak ch = false → good ch

/-- Further on there is no more than before. -/
theorem Offers.crosses (h : Offers c good) (hc : c.Crosses c') : Offers c' good :=
  { h with line := fun ch hch => h.line ch (hc.suffix.subset hch) }

/-- So it is behind the indicator. -/
theorem Offers.skip (h : Offers c good) : Offers (c.skip 1) good :=
  { h with line := fun ch hch => h.line ch (List.mem_of_mem_drop hch) }

/-- Some line feeds have it. -/
theorem Offers.feeds (h : Offers c good) (n : Nat) : ∀ ch ∈ List.replicate n '\n', good ch :=
  fun _ hch => List.eq_of_mem_replicate hch ▸ h.feed

/-! ## Plain scalars -/

section

variable {inFlow : Bool} {indent : Int} {gap gap' : Gap} {text : List Char}

/-- What a gap with such blanks reads as has it. -/
theorem Offers.gapText (h : Offers c good) (hgap : ∀ ch ∈ gap.blanks, good ch) :
    ∀ ch ∈ gap.text, good ch := by
  unfold Gap.text
  split
  · split
    · simpa using h.space
    · exact h.feeds _
  · exact fun ch hch => hgap ch (List.mem_reverse.mp hch)

/-- The blanks of a gap stand on the lines. -/
theorem Offers.skipGap (h : Offers c good) (hgap : ∀ ch ∈ gap.blanks, good ch)
    (hskip : Plain.skipGap indent gap c = some (gap', c')) : ∀ ch ∈ gap'.blanks, good ch := by
  fun_induction Plain.skipGap indent gap c
  case case1 | case7 =>
    cases hskip
    exact hgap
  case case2 gap c ch tail hc hwhite _ _ _ hblanks _ ih =>
    exact ih (h.crosses ((passes_skipWhite hc hwhite).trans
      (passes_skipBlanks hblanks)).crosses) hgap hskip
  case case3 | case4 => cases hskip
  case case5 gap c ch tail hc hwhite _ ih =>
    refine ih (h.crosses (passes_skipWhite hc hwhite).crosses) ?_ hskip
    have hbreak : isBreak ch = false := by
      unfold isWhite at hwhite
      unfold isBreak
      grind
    unfold Gap.white
    split
    · exact hgap
    · exact List.forall_mem_cons.mpr ⟨h.line ch (hc ▸ List.mem_cons_self) hbreak, hgap⟩
  case case6 gap c ch tail hc _ hbreak ih =>
    refine ih (h.crosses (passes_skipBreak hc hbreak).crosses) ?_ hskip
    unfold Gap.lineBreak
    split
    · exact hgap
    · exact List.forall_mem_nil _

/-- The words of a plain scalar have it. -/
theorem Offers.words (h : Offers c good) (hgap : ∀ ch ∈ gap.blanks, good ch)
    (hwords : Plain.words inFlow indent gap c = some (text, gap', c')) : ∀ ch ∈ text, good ch := by
  have hword {c : Cursor} (h : Offers c good) : ∀ ch ∈ Plain.word inFlow c.rest, good ch := by
    intro ch hch
    obtain ⟨hstart, hsolid⟩ := Plain.word_spec inFlow c.rest
    exact h.line ch (hstart.subset hch) (hsolid ch hch).2
  fun_induction Plain.words inFlow indent gap c generalizing text
  case case1 | case3 =>
    cases hwords
    exact List.forall_mem_nil _
  case case5 =>
    cases hwords
    exact List.forall_mem_append.mpr ⟨h.gapText hgap, hword h⟩
  case case6 gap c _ _ _ _ _ _ _ hskip _ _ ih =>
    obtain ⟨⟨text', last, final⟩, hrest, hwords⟩ := Option.map_eq_some_iff.mp hwords
    cases hwords
    have hbehind := h.crosses (Plain.takes_word inFlow c).crosses
    refine List.forall_mem_append.mpr ⟨List.forall_mem_append.mpr ⟨h.gapText hgap, hword h⟩, ?_⟩
    exact ih (hbehind.crosses (Plain.passes_skipGap hskip).crosses)
      (hbehind.skipGap (fun _ hch => absurd hch List.not_mem_nil) hskip) hrest
  all_goals cases hwords

end

/-! ## Blocks -/

section

variable {literal : Bool}

/-- What stands before a line is made of line feeds, or is a space. -/
theorem Offers.separator (h : Offers c good) (s : Block.Lines) (blank : Bool) :
    ∀ ch ∈ s.separator literal blank, good ch := by
  unfold Block.Lines.separator
  split
  · split
    · simpa using h.space
    · exact h.feeds _
  · rw [List.forall_mem_append]
    refine ⟨?_, h.feeds _⟩
    split
    · simpa using h.feed
    · exact nofun

/-- The text of lines is made of it. -/
theorem Offers.readLines (h : Offers c good) {s : Block.Lines} (hs : ∀ ch ∈ s.text, good ch)
    (indent : Nat) : ∀ ch ∈ (Block.readLines literal indent s c).1.text, good ch := by
  have hline {s : Block.Lines} {c : Cursor} (h : Offers c good) (hs : ∀ ch ∈ s.text, good ch)
      (blank : Bool) : ∀ ch ∈ (c.rest.takeWhile fun x => !isBreak x).reverse ++
        (s.separator literal blank).reverse ++ s.text, good ch := by
    rw [List.forall_mem_append, List.forall_mem_append]
    refine ⟨⟨fun ch hch => ?_, fun ch hch => ?_⟩, hs⟩
    · rw [List.mem_reverse] at hch
      exact h.line ch ((List.takeWhile_prefix _).subset hch) (by
        simpa using List.mem_takeWhile_imp hch)
    · exact h.separator s blank ch (List.mem_reverse.mp hch)
  fun_induction Block.readLines literal indent s c
  case case1 | case2 => exact hs
  case case3 => exact hline h hs _
  case case4 s c hstart ch tail _ blank line text c' hne more c'' hindent hlt ih =>
    refine ih (h.crosses ?_) (hline h hs blank)
    obtain ⟨ch', rest, hrest, hends⟩ := Block.exists_break (Block.takes_line c) hne
    have hnext := (Block.indents_skipIndent indent 0 c'.skipBreak).1.passes.crosses
    rw [hindent] at hnext
    exact .text (Block.takes_line c) (.lineBreak hrest hends rfl rfl hnext)
  case case5 => exact hline h hs _

/-- So is the text of a block with its tail. -/
theorem Offers.close (h : Offers c good) {s : Block.Lines} (hs : ∀ ch ∈ s.text, good ch)
    (chomping : Block.Chomping) (indent : Nat) (c' : Cursor) :
    ∀ ch ∈ s.close chomping indent c', good ch := by
  have hif (b : Bool) : ∀ ch ∈ if b then ['\n'] else [], good ch := by
    cases b
    · exact nofun
    · simpa using h.feed
  unfold Block.Lines.close
  rw [List.forall_mem_append]
  refine ⟨fun ch hch => hs ch (List.mem_reverse.mp hch), ?_⟩
  cases chomping with
  | strip => exact nofun
  | clip =>
    rw [List.forall_mem_append]
    exact ⟨hif _, hif _⟩
  | keep =>
    rw [List.forall_mem_append, List.forall_mem_append]
    exact ⟨⟨hif _, hif _⟩, h.feeds _⟩

/-- A block that is read from a place on has a text that is made of what there is. -/
theorem Offers.readBlock (h : Offers c good) {outer : Int} {text : List Char} {mark : Mark}
    (hread : Block.read literal outer c = some (text, mark, c')) : ∀ ch ∈ text, good ch := by
  unfold Block.read at hread
  obtain ⟨⟨header, c₁⟩, hheader, hread⟩ := Option.bind_eq_some_iff.mp hread
  have hbehind := h.skip.crosses (Block.passes_headerLine hheader).1.crosses
  dsimp only at hread
  generalize (if !c₁.rest.isEmpty then c₁.skipBreak else c₁) = d at hread hbehind
  have hindent := (Block.indents_findIndent outer header.increment d).1.passes.crosses
  split at hread
  · cases hread
  · split at hread
    · cases hread
      exact fun ch hch => Block.eq_of_mem_blankText hch ▸ h.feed
    · split at hread
      · cases hread
      · cases hread
        exact h.close ((hbehind.crosses hindent).readLines (s := { more := _ })
          (fun _ hch => absurd hch List.not_mem_nil) _) _ _ _

end

end Yaml

/-! ## Tokens -/

/-- Whether a text can be that of a scalar of a style: without quotes it is unbroken. -/
def ScalarStyle.CanHold (style : ScalarStyle) (text : String) : Prop :=
  style ≠ .quoted → IsUnbroken text

namespace Yaml

/-- Whether a kind of token, if it is a scalar, has a text that its style can hold. -/
def TokenKind.FitsStyle : TokenKind → Prop
  | .scalar style text => (ScalarStyle.ofStyle style).CanHold text
  | _ => True

/-- What is no scalar has no text. -/
theorem TokenKind.IsBare.fitsStyle {kind : TokenKind} (h : kind.IsBare) : kind.FitsStyle := by
  cases kind with
  | scalar style text => cases h
  | _ => trivial

/-- Where no NUL character is left, the style of a scalar can hold its text. -/
theorem ScalarReading.EndsAt.fitsStyle {r : ScalarReading} {c : Cursor} (h : r.EndsAt c)
    (hrest : ∀ ch ∈ r.lexer.cursor.rest, ch ≠ '\x00') : r.token.kind.FitsStyle := by
  have hreturn {ch : Char} (hbreak : isBreak ch = false) : ch ≠ '\r' := by
    rintro rfl
    cases hbreak
  have hoffers : Offers r.lexer.cursor fun ch => ch ≠ '\r' ∧ ch ≠ '\x00' :=
    { feed := by decide
      space := by decide
      line := fun ch hch hbreak => ⟨hreturn hbreak, hrest ch hch⟩ }
  have hunbroken {text : List Char} (htext : ∀ ch ∈ text, ch ≠ '\r' ∧ ch ≠ '\x00') :
      IsUnbroken (String.ofList text) := by
    rw [IsUnbroken, String.toList_ofList]
    exact ⟨fun hmem => (htext _ hmem).1 rfl, fun hmem => (htext _ hmem).2 rfl⟩
  cases h with
  | plain words =>
    exact fun _ => hunbroken (hoffers.words (fun _ hch => absurd hch List.not_mem_nil) words)
  | quoted start body behind => split <;> exact fun hstyle => absurd rfl hstyle
  | block start read => exact fun _ => hunbroken (hoffers.readBlock read)

/-- So it goes on to be. -/
theorem Lexer.isInvariant_fitsStyle :
    IsInvariant (fun _ c => ∀ ch ∈ c.rest, ch ≠ '\x00') fun t => t.kind.FitsStyle where
  passes := fun hc hpassed ch hch => hc ch (hpassed.crosses.suffix.subset hch)
  scalar := fun hc _ hr => ⟨fun ch hch => hc ch (hr.crosses.suffix.subset hch), hr.fitsStyle hc⟩
  bare := fun _ _ hkind => hkind.fitsStyle
  anchor := fun _ _ _ _ => trivial
  margin := fun _ hkind => hkind.fitsStyle
  pair := fun _ => trivial

/-- The scalars of a source have texts that their styles can hold. -/
theorem fitsStyle_tokens (source : List Char) : ∀ t ∈ tokens source, t.kind.FitsStyle := by
  refine ((Lexer.keeps_ofSource ?_).run Lexer.isInvariant_fitsStyle).1
  intro ch hch
  simpa using List.mem_takeWhile_imp hch

end Yaml

/-! ## Nodes -/

/-- Whether the scalars of a tree have texts that their styles can hold. -/
inductive Node.FitsStyle : Node → Prop
  | scalar {info : NodeInfo} {value : String} {style : ScalarStyle} (htext : style.CanHold value) :
      FitsStyle (.scalar info value style)
  | mapping {info : NodeInfo} {pairs : List (Node × Node)} (hkeys : ∀ p ∈ pairs, FitsStyle p.1)
      (hvalues : ∀ p ∈ pairs, FitsStyle p.2) : FitsStyle (.mapping info pairs)
  | sequence {info : NodeInfo} {items : List Node} (hitems : ∀ n ∈ items, FitsStyle n) :
      FitsStyle (.sequence info items)
  | reference {info : NodeInfo} {target : Node} (htarget : FitsStyle target) :
      FitsStyle (.reference info target)

namespace Node.FitsStyle

variable {n : Node}

/-- So it is for the node that an alias leads to. -/
theorem resolve (h : n.FitsStyle) : n.resolve.FitsStyle := by
  induction h with
  | scalar htext => exact .scalar htext
  | mapping hkeys hvalues => exact .mapping hkeys hvalues
  | sequence hitems => exact .sequence hitems
  | reference _ ih => exact ih

/-- So it is for the values of a mapping. -/
theorem members (h : n.FitsStyle) : ∀ p ∈ n.members, p.2.FitsStyle := by
  intro p hp
  have hresolve := h.resolve
  unfold Node.members at hp
  cases hshape : n.resolve with
  | mapping info pairs =>
    rw [hshape] at hp hresolve
    cases hresolve with
    | mapping _ hvalues => exact hvalues p hp
  | scalar | sequence | reference =>
    rw [hshape] at hp
    cases hp

end Node.FitsStyle

namespace Document

variable {source : String} {root : Node}

/-- The scalars of the events of a document have texts that their styles can hold. -/
theorem canHold_of_mem_events {events : List Yaml.Event}
    (h : Yaml.events? (Yaml.tokens source.toList) = some (some events)) {e : Yaml.Event}
    (he : e ∈ events) {text : String} {style : Yaml.Style} {anchor : Option Nat}
    (hkind : e.kind = .scalar text style anchor) : (ScalarStyle.ofStyle style).CanHold text := by
  obtain ⟨rest, hreads, -⟩ := reads_events h
  obtain ⟨t, ht, -, -, htext⟩ := hreads.placed e he (by rw [Yaml.Event.IsContent, hkind]; trivial)
  rw [Yaml.Event.HasTextOf, hkind] at htext
  rcases htext with rfl | rfl | htoken
  · exact fun _ => by decide
  · exact fun _ => by decide
  · have hfits := Yaml.fitsStyle_tokens source.toList t ht
    rw [htoken] at hfits
    exact hfits

/-- **What is held without quotes.** No plain or block scalar of a tree that was read holds a carriage
return or a NUL. -/
theorem fitsStyle_of_read [Diagnosis] (h : read source = .ok (some root)) : root.FitsStyle := by
  obtain ⟨events, hevents, hbuilt⟩ := read_eq_ok_some h
  refine TreeBuilder.Makes.ofEvents ?_ hbuilt
  exact
    { scalar := fun he hkind => .scalar (canHold_of_mem_events hevents he hkind)
      reference := fun _ _ _ htarget => .reference htarget
      sequence := fun hitems => .sequence hitems
      mapping := fun hpairs => .mapping (fun p hp => (hpairs p hp).1) fun p hp => (hpairs p hp).2 }

end Document

end QueryBook
