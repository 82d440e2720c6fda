import QueryBook.Proofs.Comments
import QueryBook.Proofs.HiddenLines
import QueryBook.Proofs.OutlineTree

/-!
# The comments of an outline

In the document of an outline the comment above a key is found above it, and what is found behind a
key or a value is what looks like a comment in its own line.
-/

namespace QueryBook

open Yaml
open Document (EndsBlocks hiddenLines? isInBlock)

/-! ## First characters -/

/-- A written text begins with a character that is no blank and no marker. -/
theorem first_scalar (text : String) : ∃ c cs, (Canonical.scalar text).toList = c :: cs ∧
    Text.isBlank c = false ∧ c ≠ '#' := by
  unfold Canonical.scalar
  split
  · next hsafe =>
    obtain ⟨-, hstart, -⟩ := Canonical.plainFrom_of_isPlainSafe hsafe
    unfold Canonical.isPlainSafe at hsafe
    dsimp only at hsafe
    split at hsafe
    · next c cs _ hc _ =>
      simp only [Bool.and_eq_true, Bool.not_eq_true'] at hsafe
      refine ⟨c, cs, hc, hsafe.1.1.1.1.1.2, ?_⟩
      rintro rfl
      exact hstart '#' (by rw [hc]; rfl) (by decide)
    · cases hsafe
  · rw [Quoted.toList_doubleQuoted]
    exact ⟨'"', _, rfl, by decide, by decide⟩

/-! ## Lines that end blocks -/

namespace Heading

/-- The line of a key. -/
def keyLine (h : Heading) (k : Nat) (value : List Char) : List Char :=
  List.replicate k ' ' ++ (h.written ++ ':' :: value)

/-- What stands before a value on the line of its key. -/
def beforeValue (h : Heading) (k : Nat) : List Char :=
  List.replicate k ' ' ++ (h.written ++ [':', ' '])

@[simp] theorem length_beforeValue (h : Heading) (k : Nat) :
    (h.beforeValue k).length = k + h.written.length + 2 := by
  simp [beforeValue, Nat.add_assoc]

/-- The line of a key with a scalar. -/
theorem keyLine_text (h : Heading) (k : Nat) (t : String) :
    h.keyLine k (Leaf.text t).inline = h.beforeValue k ++ ((Canonical.scalar t).toList ++ []) := by
  simp [keyLine, beforeValue, Leaf.inline]

/-- The lines of a heading are empty ones, the comment and the line of the key. -/
theorem lines_eq (h : Heading) (k : Nat) (value : List Char) :
    h.lines k value = List.replicate h.blanks [] ++
      (h.comment.lines.map (commentLine k) ++ [h.keyLine k value]) := by
  rw [lines, above, List.append_assoc]
  rfl

/-- The line of a key is no comment. -/
theorem isCommentLine_keyLine (h : Heading) (k : Nat) (value : List Char) :
    Margin.isCommentLine (h.keyLine k value) = false := by
  obtain ⟨c, cs, hc, hblank, hhash⟩ := first_scalar h.key
  have hstart : Text.trimStartChars (h.written ++ ':' :: value) = c :: (cs ++ ':' :: value) := by
    rw [Text.trimStartChars, written, hc, List.cons_append,
      List.dropWhile_cons_of_neg (by simp [hblank])]
  rw [Margin.isCommentLine, keyLine, Text.trimChars_indented, Text.trimChars, hstart,
    Text.trimEndChars, Text.dropEndWhile_cons hblank]
  simp [hhash]

/-- No block that is indented deeper goes on behind a heading. -/
theorem endsBlocks (h : Heading) {k n : Nat} (hk : k < n) (value : List Char)
    (ls : List (List Char)) : EndsBlocks n (h.lines k value ++ ls) := by
  rw [lines_eq, List.append_assoc]
  refine EndsBlocks.blanks ?_ _
  cases h.comment.lines with
  | nil =>
    obtain ⟨c, cs, hc, hblank, -⟩ := first_scalar h.key
    refine EndsBlocks.cons ?_ _
    rw [keyLine, written, hc]
    refine Document.isInBlock_line hk ?_ List.mem_cons_self hblank
    rintro rfl
    exact absurd hblank (by decide)
  | cons line lines =>
    exact EndsBlocks.cons (Document.isInBlock_line hk (by decide) List.mem_cons_self (by decide)) _

end Heading

namespace Outline

/-- Nor does it behind the first heading of an outline. -/
theorem endsBlocks (o : Outline) {k n : Nat} {behind : List (List Char)} (hk : k < n)
    (h : EndsBlocks n behind) :
    EndsBlocks n (o.lines k ++ behind) := by
  cases o with
  | done => exact h
  | leaf heading v rest =>
    rw [lines, List.append_assoc]
    exact heading.endsBlocks hk _ _
  | nested heading anchor inner rest =>
    rw [lines, List.append_assoc]
    exact heading.endsBlocks hk _ _

end Outline

/-! ## Lines of a document -/

/-- Whether lines stand in a document from a line on, with others behind them. -/
def Stands (ls : List (List Char)) (line : Nat) (part behind : List (List Char)) : Prop :=
  ∃ above, ls = above ++ (part ++ behind) ∧ above.length + 1 = line

variable {ls part part' behind : List (List Char)} {line k : Nat}

/-- The first of two parts has the other one behind it. -/
theorem Stands.left (h : Stands ls line (part ++ part') behind) :
    Stands ls line part (part' ++ behind) := by
  obtain ⟨above, hls, hline⟩ := h
  exact ⟨above, by rw [hls, List.append_assoc], hline⟩

/-- The second one stands behind the lines of the first. -/
theorem Stands.right (h : Stands ls line (part ++ part') behind) :
    Stands ls (line + part.length) part' behind := by
  obtain ⟨above, hls, hline⟩ := h
  refine ⟨above ++ part, by simp [hls], ?_⟩
  rw [List.length_append]
  omega

/-- Lines are counted from 1. -/
theorem Stands.pos (h : Stands ls line part behind) : 0 < line := by
  obtain ⟨above, -, hline⟩ := h
  omega

/-- The lines are those of the document. -/
theorem Stands.getElem? (h : Stands ls line part behind) {i : Nat} (hi : i < part.length) :
    ls[line + i - 1]? = part[i]? := by
  obtain ⟨above, rfl, hline⟩ := h
  have hindex : line + i - 1 = above.length + i := by omega
  rw [hindex, List.getElem?_append_right (by omega), Nat.add_sub_cancel_left,
    List.getElem?_append_left hi]

@[simp] theorem Heading.length_lines (h : Heading) (k : Nat) (value : List Char) :
    (h.lines k value).length = h.height + 1 := by
  rw [Heading.lines, List.length_append, Heading.length_above, List.length_singleton]

namespace Outline

variable {h : Heading} {v : Leaf} {anchor : Option String} {inner rest : Outline}

/-- The parts of a pair with a value and of what follows it. -/
theorem stands_leaf (hs : Stands ls line ((leaf h v rest).lines k) behind) :
    Stands ls line (h.lines k v.inline) (v.lines (k + 2) ++ (rest.lines k ++ behind)) ∧
      Stands ls (line + h.height + 1) (v.lines (k + 2)) (rest.lines k ++ behind) ∧
      Stands ls (line + h.height + 1 + v.height) (rest.lines k) behind := by
  have hbehind := hs.right
  rw [Heading.length_lines, ← Nat.add_assoc] at hbehind
  refine ⟨?_, hbehind.left, ?_⟩
  · rw [← List.append_assoc]
    exact hs.left
  · rw [← v.length_lines (k + 2)]
    exact hbehind.right

/-- The parts of a pair with a mapping and of what follows it. -/
theorem stands_nested (hs : Stands ls line ((nested h anchor inner rest).lines k) behind) :
    Stands ls line (h.lines k (anchorText anchor))
        (inner.lines (k + 2) ++ (rest.lines k ++ behind)) ∧
      Stands ls (line + h.height + 1) (inner.lines (k + 2)) (rest.lines k ++ behind) ∧
      Stands ls (line + h.height + 1 + inner.height) (rest.lines k) behind := by
  have hbehind := hs.right
  rw [Heading.length_lines, ← Nat.add_assoc] at hbehind
  refine ⟨?_, hbehind.left, ?_⟩
  · rw [← List.append_assoc]
    exact hs.left
  · rw [← inner.length_lines (k + 2)]
    exact hbehind.right

end Outline

/-! ## Hidden lines -/

/-- Whether an event hides lines only between two lines, those themselves not counted. -/
def HidesWithin (ls : List (List Char)) (first last : Nat) (e : Event) : Prop :=
  ∀ r ∈ hiddenLines? ls e, first < r.1 ∧ r.2 < last

theorem HidesWithin.mono {first last first' last' : Nat} {e : Event}
    (h : HidesWithin ls first last e) (hfirst : first' ≤ first) (hlast : last ≤ last') :
    HidesWithin ls first' last' e :=
  fun r hr => ⟨Nat.lt_of_le_of_lt hfirst (h r hr).1, Nat.lt_of_lt_of_le (h r hr).2 hlast⟩

/-- The line of a key lies behind those above it. -/
theorem Heading.getElem?_keyLine {h : Heading} {value : List Char}
    (hs : Stands ls line (h.lines k value) behind) :
    ls[line + h.height - 1]? = some (h.keyLine k value) := by
  rw [hs.getElem? (by simp), Heading.lines, List.getElem?_append_right (by simp),
    Heading.length_above, Nat.sub_self]
  rfl

/-- A key hides no line. -/
theorem Heading.hidesWithin_event {h : Heading} {value : List Char}
    (hs : Stands ls line (h.lines k value) behind) :
    HidesWithin ls (line + h.height) (line + h.height + 1) (h.event k line) := by
  have hscalar : ∀ r ∈ hiddenLines? ls (h.event k line),
      r.1 = line + h.height + 1 ∧ r.2 ≤ line + h.height :=
    Document.hiddenLines?_scalar (h.getElem?_keyLine hs) (by simp [keyPosition])
  intro r hr
  have := hscalar r hr
  omega

/-- The lines that a literal block hides. -/
theorem Leaf.hiddenLines?_literal {t : String} (hv : (literal t).Legible)
    (hs : Stands ls line ((literal t).lines (k + 2)) behind) (blanks : Nat) :
    hiddenLines? ls ⟨.scalar (read t blanks) .literal none, blockPosition t k (line - 1)⟩ =
      some (line + Block.blanksBefore (Sql.bodyLines t.toList),
        line - 1 + (literal t).height + (behind.takeWhile (isInBlock (k + 2))).length) := by
  obtain ⟨above, rfl, rfl⟩ := hs
  have hreturn : '\r' ∉ t.toList := fun hmem => (hv.1 '\r' hmem).1 rfl
  have hread : Text.isAllBlank (read t blanks) = false := by
    have hblank := hv.2
    rw [Text.isAllBlank] at hblank ⊢
    rw [read, String.toList_ofList, Block.withBlanks, List.all_append, hblank, Bool.false_and]
  rw [← length_lines _ (k + 2)]
  exact Document.blockLines?_literal hreturn hv.2 hread

/-- A value hides the lines below its key and the empty ones behind them. -/
theorem Leaf.hidesWithin_event {h : Heading} {v : Leaf} (hv : v.Legible)
    {rest : List (List Char)} (hkey : Stands ls line (h.lines k v.inline) rest)
    (hs : Stands ls (line + h.height + 1) (v.lines (k + 2)) behind)
    (hbehind : EndsBlocks (k + 2) behind) {blanks : Nat} {seen : List String} {e : Event}
    (he : v.event k (h.valuePosition k line) blanks seen = some e) :
    HidesWithin ls (line + h.height)
      (line + h.height + 1 + v.height + Block.blanksBefore behind) e := by
  cases v with
  | text t =>
    cases he
    have hline := h.getElem?_keyLine hkey
    rw [h.keyLine_text] at hline
    -- a scalar on one line hides at most an empty range of lines
    have hscalar : ∀ r ∈ hiddenLines? ls ⟨.scalar t (styleOf t) none, h.valuePosition k line⟩,
        r.1 = line + h.height + 1 ∧ r.2 ≤ line + h.height :=
      Document.hiddenLines?_scalar hline (by simp [Heading.valuePosition])
    intro r hr
    have := hscalar r hr
    omega
  | literal t =>
    cases he
    intro r hr
    obtain rfl := Option.some.inj ((hiddenLines?_literal hv hs blanks).symm.trans hr)
    have : (behind.takeWhile (isInBlock (k + 2))).length ≤ Block.blanksBefore behind := hbehind
    dsimp only
    omega
  | reference name =>
    obtain ⟨number, -, rfl⟩ := Option.map_eq_some_iff.mp he
    intro r hr
    cases hr

namespace Outline

variable {after : Nat} {next : Position} {seen : List String} {es : List Event}

/-- The empty lines in front of an outline are some of its lines. -/
theorem gap_le (o : Outline) (after : Nat) : o.gap after ≤ o.height + after := by
  cases o <;> simp only [gap, height, Heading.height] <;> omega

/-- An outline hides lines between its first one and the text behind it. -/
theorem hidesWithin_events {o : Outline} (ho : o.Legible k) (hs : Stands ls line (o.lines k) behind)
    (hbehind : EndsBlocks (k + 2) behind) (he : o.events k line next after seen = some es) :
    ∀ e ∈ es, HidesWithin ls line (line + o.height + Block.blanksBefore behind) e := by
  induction o generalizing k line behind after next seen es with
  | done =>
    cases he
    intro e he
    cases he
  | leaf h v rest ih =>
    obtain ⟨-, hv, hrest⟩ := ho
    obtain ⟨hkey, hvalue, hs'⟩ := stands_leaf hs
    obtain ⟨e', he', he⟩ := Option.bind_eq_some_iff.mp he
    obtain ⟨es', hes', hes⟩ := Option.bind_eq_some_iff.mp he
    cases hes
    have hgap := rest.gap_le (Block.blanksBefore behind)
    have hheight : (leaf h v rest).height = h.height + 1 + v.height + rest.height := rfl
    have hleaf := v.hidesWithin_event hv hkey hvalue (rest.endsBlocks (by omega) hbehind) he'
    rw [blanksBefore_lines] at hleaf
    intro e hmem
    simp only [List.mem_cons] at hmem
    rcases hmem with rfl | rfl | hmem
    · exact (h.hidesWithin_event hkey).mono (by omega) (by omega)
    · exact hleaf.mono (by omega) (by omega)
    · exact (ih hrest hs' hbehind hes' e hmem).mono (by omega) (by omega)
  | nested h anchor inner rest ihi ihr =>
    obtain ⟨-, -, -, hinner, hrest⟩ := ho
    obtain ⟨hkey, hi, hr⟩ := stands_nested hs
    obtain ⟨es', hes', he⟩ := Option.bind_eq_some_iff.mp he
    obtain ⟨es'', hes'', hes⟩ := Option.bind_eq_some_iff.mp he
    cases hes
    have hgap := rest.gap_le (Block.blanksBefore behind)
    have hheight : (nested h anchor inner rest).height = h.height + 1 + inner.height + rest.height :=
      rfl
    have hwithin := ihi hinner hi (rest.endsBlocks (by omega) (hbehind.mono (by omega))) hes'
    rw [blanksBefore_lines] at hwithin
    intro e hmem
    simp only [List.mem_cons, List.mem_append] at hmem
    rcases hmem with rfl | rfl | hmem | rfl | hmem
    · exact (h.hidesWithin_event hkey).mono (by omega) (by omega)
    · intro r hr
      cases hr
    · exact (hwithin e hmem).mono (by omega) (by omega)
    · intro r hr
      cases hr
    · exact (ihr hrest hr hbehind hes'' e hmem).mono (by omega) (by omega)

end Outline

/-! ## Comments that are found -/

variable {m : Margin}

/-- The comments that are found at a key with something behind its `:`. -/
structure Heading.Found (m : Margin) (h : Heading) (k line : Nat) (value : List Char) : Prop where
  head : m.head (line + h.height) (k + 1) = h.comment.raw
  trailing : m.trailing (line + h.height) (k + 1) = Margin.trailer (h.written ++ ':' :: value)

/-- The comments that are found at a scalar on the line of its key. -/
def Leaf.Found (m : Margin) (position : Position) : Leaf → Prop
  | text t => m.head position.line position.column = "" ∧
      m.trailing position.line position.column = Margin.trailer (Canonical.scalar t).toList
  | _ => True

namespace Outline

/-- The comments that are found in an outline. -/
def Found (m : Margin) (k line : Nat) : Outline → Prop
  | done => True
  | leaf h v rest => h.Found m k line v.inline ∧ v.Found m (h.valuePosition k line) ∧
      rest.Found m k (line + h.height + 1 + v.height)
  | nested h anchor inner rest => h.Found m k line (anchorText anchor) ∧
      inner.Found m (k + 2) (line + h.height + 1) ∧
      rest.Found m k (line + h.height + 1 + inner.height)

/-- Whether the comments of an outline can be found. -/
def IsTidy : Outline → Prop
  | done => True
  | leaf h _ rest => h.comment.IsTidy ∧ rest.IsTidy
  | nested h _ inner rest => h.comment.IsTidy ∧ inner.IsTidy ∧ rest.IsTidy

end Outline

/-- Whether what is hidden lies before a line, or from another on, or is hidden by some events. -/
def Margin.HidesOnly (m : Margin) (low high : Nat) (es : List Event) : Prop :=
  ∀ r ∈ m.hidden, r.2 < low ∨ high ≤ r.1 ∨ ∃ e ∈ es, r ∈ hiddenLines? m.lines e

/-- Whether no line from one to another is hidden. -/
def Margin.IsOpen (m : Margin) (first last : Nat) : Prop :=
  ∀ r ∈ m.hidden, r.2 < first ∨ last < r.1

/-- Lines are open if the events hide only what comes behind them. -/
theorem Margin.HidesOnly.isOpen {m : Margin} {low high last : Nat} {es : List Event}
    (h : m.HidesOnly low high es) (hhigh : last < high)
    (hes : ∀ e ∈ es, ∀ r ∈ hiddenLines? m.lines e, last < r.1) : m.IsOpen low last := by
  intro r hr
  rcases h r hr with hr | hr | ⟨e, hmem, hr⟩
  · exact .inl hr
  · exact .inr (Nat.lt_of_lt_of_le hhigh hr)
  · exact .inr (hes e hmem r hr)

/-- Between closer lines there is only what some of the events hide, if the others hide nothing
there. -/
theorem Margin.HidesOnly.closer {m : Margin} {low high low' high' : Nat} {es es' : List Event}
    (h : m.HidesOnly low high es) (hlow : low ≤ low') (hhigh : high' ≤ high)
    (hes : ∀ e ∈ es, e ∈ es' ∨ ∀ r ∈ hiddenLines? m.lines e, r.2 < low' ∨ high' ≤ r.1) :
    m.HidesOnly low' high' es' := by
  intro r hr
  rcases h r hr with hr | hr | ⟨e, hmem, hr⟩
  · exact .inl (Nat.lt_of_lt_of_le hr hlow)
  · exact .inr (.inl (Nat.le_trans hhigh hr))
  · rcases hes e hmem with hmem | hout
    · exact .inr (.inr ⟨e, hmem, hr⟩)
    · exact (hout r hr).imp_right .inl

/-- Open lines are not hidden. -/
theorem Margin.IsOpen.isHidden {first last : Nat} (h : m.IsOpen first last) {line : Nat}
    (hfirst : first ≤ line) (hlast : line ≤ last) : m.isHidden line = false := by
  rw [Margin.isHidden, List.any_eq_false]
  intro r hr
  have := h r hr
  simp only [Bool.and_eq_true, decide_eq_true_eq, not_and]
  omega

/-- In open lines comments are looked for. -/
theorem Margin.IsOpen.line? {first last : Nat} (h : m.IsOpen first last) {line : Nat}
    (hfirst : first ≤ line) (hlast : line ≤ last) (hpos : 0 < line) :
    m.line? line = m.lines[line - 1]? := by
  rw [Margin.line?, h.isHidden hfirst hlast]
  simp only [Bool.or_false, decide_eq_true_eq]
  rw [if_neg (by omega)]

namespace Heading

variable {h : Heading} {value : List Char}

/-- The comment of a heading and its key are shown. -/
theorem shows (hs : Stands m.lines line (h.lines k value) behind)
    (hopen : m.IsOpen (line + h.blanks) (line + h.height)) :
    m.Shows (line - 1 + h.blanks) (h.comment.lines.map (commentLine k) ++ [h.keyLine k value]) := by
  obtain ⟨above, hlines, rfl⟩ := hs
  have hheight : h.height = h.blanks + h.comment.lines.length := rfl
  have habove : above.length + 1 - 1 + h.blanks = (above ++ List.replicate h.blanks []).length := by
    simp
  have hlines' : m.lines = (above ++ List.replicate h.blanks []) ++
      ((h.comment.lines.map (commentLine k) ++ [h.keyLine k value]) ++ behind) := by
    rw [hlines, lines_eq]
    simp only [List.append_assoc]
  rw [habove]
  refine Margin.shows_of_lines hlines' fun l hfirst hlast => ?_
  simp only [List.length_append, List.length_replicate, List.length_map,
    List.length_singleton] at hfirst hlast
  exact hopen.isHidden (by omega) (by omega)

/-- Above the comment of a heading there is none. -/
theorem commentsUpTo_blanks (hs : Stands m.lines line (h.lines k value) behind)
    (hquiet : m.commentsUpTo (line - 1) = []) : m.commentsUpTo (line - 1 + h.blanks) = [] := by
  cases hblanks : h.blanks with
  | zero => exact hquiet
  | succ b =>
    refine Margin.commentsUpTo_eq_nil_iff.mpr fun text htext => ?_
    have hline := Margin.getElem?_of_line? htext
    have hpos := hs.pos
    have hheight : h.height = h.blanks + h.comment.lines.length := rfl
    have hindex : line - 1 + (b + 1) - 1 = line + b - 1 := by omega
    rw [hindex, hs.getElem? (by simp; omega), lines_eq, List.getElem?_append_left (by simp; omega),
      List.getElem?_replicate_of_lt (by omega)] at hline
    cases hline
    rfl

/-- The comments at a key are found. -/
theorem found (hc : h.comment.IsTidy) (hs : Stands m.lines line (h.lines k value) behind)
    (hopen : m.IsOpen (line + h.blanks) (line + h.height))
    (hquiet : m.commentsUpTo (line - 1) = []) : h.Found m k line value := by
  have hpos := hs.pos
  have hheight : h.height = h.blanks + h.comment.lines.length := rfl
  have hline : line - 1 + h.blanks + h.comment.lines.length + 1 = line + h.height := by omega
  constructor
  · rw [← hline, Margin.head_key hc (shows hs hopen), commentsUpTo_blanks hs hquiet]
    rfl
  · have hkey : m.line? (line + h.height) = some (h.keyLine k value) := by
      rw [hopen.line? (by omega) (Nat.le_refl _) (by omega), h.getElem?_keyLine hs]
    have htrailing := Margin.trailing_of_line? hkey
    rwa [List.length_replicate] at htrailing

/-- Behind a key there is no comment to find. -/
theorem commentsUpTo_key (hs : Stands m.lines line (h.lines k value) behind) :
    m.commentsUpTo (line + h.height) = [] := by
  refine Margin.commentsUpTo_eq_nil_iff.mpr fun text htext => ?_
  have hline := Margin.getElem?_of_line? htext
  rw [h.getElem?_keyLine hs] at hline
  cases hline
  exact h.isCommentLine_keyLine k value

end Heading

/-- The comments at a value are found. -/
theorem Leaf.found {h : Heading} {v : Leaf} (hs : Stands m.lines line (h.lines k v.inline) behind)
    (hopen : m.IsOpen (line + h.blanks) (line + h.height)) :
    v.Found m (h.valuePosition k line) := by
  cases v with
  | text t =>
    have hpos := hs.pos
    have hheight : h.height = h.blanks + h.comment.lines.length := rfl
    have hkey : m.line? (line + h.height) =
        some (h.beforeValue k ++ ((Canonical.scalar t).toList ++ [])) := by
      rw [hopen.line? (by omega) (Nat.le_refl _) (by omega), h.getElem?_keyLine hs, h.keyLine_text]
    have hcolumn : (h.valuePosition k line).column = (h.beforeValue k).length + 1 := by
      rw [Heading.length_beforeValue]
      rfl
    rw [Found, hcolumn]
    refine ⟨?_, ?_⟩
    · exact Margin.head_of_line? hkey (c := ':') (by simp [Heading.beforeValue]) (by decide)
    · have := Margin.trailing_of_line? hkey
      rwa [List.append_nil] at this
  | literal t => trivial
  | reference name => trivial

/-- Behind a value there is no comment to find. -/
theorem Leaf.commentsUpTo_value {h : Heading} {v : Leaf} (hv : v.Legible)
    {rest : List (List Char)} (hkey : Stands m.lines line (h.lines k v.inline) rest)
    (hs : Stands m.lines (line + h.height + 1) (v.lines (k + 2)) behind) {blanks : Nat}
    {seen : List String} {e : Event} (he : v.event k (h.valuePosition k line) blanks seen = some e)
    (hhidden : ∀ r ∈ hiddenLines? m.lines e, r ∈ m.hidden) :
    m.commentsUpTo (line + h.height + v.height) = [] := by
  cases v with
  | text t => exact Heading.commentsUpTo_key hkey
  | literal t =>
    cases he
    have hreturn : '\r' ∉ t.toList := fun hmem => (hv.1 '\r' hmem).1 rfl
    have hlt := Document.blanksBefore_bodyLines_lt hreturn (Sql.body_ne_nil hv.2) 0
    have hheight : (Sql.blockLines t.toList 0).length = (literal t).height := rfl
    have hr := hhidden _ (hiddenLines?_literal hv hs blanks)
    refine Margin.commentsUpTo_eq_nil_iff.mpr fun text htext => ?_
    have hisHidden : m.isHidden (line + h.height + (literal t).height) = true := by
      rw [Margin.isHidden, List.any_eq_true]
      refine ⟨_, hr, ?_⟩
      rw [Bool.and_eq_true, decide_eq_true_eq, decide_eq_true_eq]
      omega
    rw [Margin.line?, hisHidden, Bool.or_true] at htext
    cases htext
  | reference name => exact Heading.commentsUpTo_key hkey

namespace Outline

variable {h : Heading} {v : Leaf} {anchor : Option String} {inner rest : Outline} {es : List Event}

/-- An outline stands in a document with its events: they hide lines there, and nothing else hides
one from its first comment or key on to its end. -/
structure Placed (m : Margin) (k line : Nat) (behind : List (List Char)) (o : Outline)
    (es : List Event) : Prop where
  legible : o.Legible k
  stands : Stands m.lines line (o.lines k) behind
  ends : EndsBlocks (k + 2) behind
  events : ∃ next after seen, o.events k line next after seen = some es
  hides : ∀ e ∈ es, ∀ r ∈ hiddenLines? m.lines e, r ∈ m.hidden
  only : m.HidesOnly (line + o.gap (Block.blanksBefore behind)) (line + o.height) es

/-- A pair with a scalar or an alias is open down to its key, and the rest stands behind it. -/
theorem Placed.of_leaf (p : (leaf h v rest).Placed m k line behind es) :
    m.IsOpen (line + h.blanks) (line + h.height) ∧
      m.commentsUpTo (line + h.height + v.height) = [] ∧
      ∃ es', rest.Placed m k (line + h.height + 1 + v.height) behind es' := by
  obtain ⟨⟨-, hv, hrest⟩, hs, hbehind, ⟨next, after, seen, he⟩, hevents, hhidden⟩ := p
  obtain ⟨hkey, hvalue, hs'⟩ := stands_leaf hs
  obtain ⟨e', he', he⟩ := Option.bind_eq_some_iff.mp he
  obtain ⟨es', hes', hes⟩ := Option.bind_eq_some_iff.mp he
  cases hes
  have hheight : (leaf h v rest).height = h.height + 1 + v.height + rest.height := rfl
  have hgap : (leaf h v rest).gap (Block.blanksBefore behind) = h.blanks := rfl
  have hblanks : h.height = h.blanks + h.comment.lines.length := rfl
  -- the key, the value and the rest hide lines behind the key, each its own
  have hwithin := h.hidesWithin_event hkey
  have hwithin' := v.hidesWithin_event hv hkey hvalue (rest.endsBlocks (by omega) hbehind) he'
  rw [blanksBefore_lines] at hwithin'
  have hwithin'' := hidesWithin_events hrest hs' hbehind hes'
  refine ⟨hhidden.isOpen (by omega) ?_,
    Leaf.commentsUpTo_value hv hkey hvalue he' (hevents e' (by simp)), es', hrest, hs', hbehind,
    ⟨_, _, _, hes'⟩, fun e hmem => hevents e (by simp [hmem]), hhidden.closer (by omega) (by omega) ?_⟩
  · refine List.forall_mem_cons.mpr ⟨fun r hr => (hwithin r hr).1, List.forall_mem_cons.mpr
      ⟨fun r hr => (hwithin' r hr).1, fun e hmem r hr => ?_⟩⟩
    have := hwithin'' e hmem r hr
    omega
  · refine List.forall_mem_cons.mpr ⟨.inr fun r hr => .inl ?_, List.forall_mem_cons.mpr
      ⟨.inr fun r hr => .inl (hwithin' r hr).2, fun e hmem => .inl hmem⟩⟩
    have := hwithin r hr
    omega

/-- A pair with a mapping is open down to its key, and behind it stand the mapping and the rest. -/
theorem Placed.of_nested (p : (nested h anchor inner rest).Placed m k line behind es) :
    m.IsOpen (line + h.blanks) (line + h.height) ∧
      (∃ es', inner.Placed m (k + 2) (line + h.height + 1) (rest.lines k ++ behind) es') ∧
      ∃ es', rest.Placed m k (line + h.height + 1 + inner.height) behind es' := by
  obtain ⟨⟨-, -, -, hinner, hrest⟩, hs, hbehind, ⟨next, after, seen, he⟩, hevents, hhidden⟩ := p
  obtain ⟨hkey, hsi, hsr⟩ := stands_nested hs
  obtain ⟨es', hes', he⟩ := Option.bind_eq_some_iff.mp he
  obtain ⟨es'', hes'', hes⟩ := Option.bind_eq_some_iff.mp he
  cases hes
  have hheight : (nested h anchor inner rest).height =
      h.height + 1 + inner.height + rest.height := rfl
  have hgap : (nested h anchor inner rest).gap (Block.blanksBefore behind) = h.blanks := rfl
  have hblanks : h.height = h.blanks + h.comment.lines.length := rfl
  have hbehind' : EndsBlocks (k + 2 + 2) (rest.lines k ++ behind) :=
    rest.endsBlocks (by omega) (hbehind.mono (by omega))
  -- the key, the mapping and the rest hide lines behind the key, each its own
  have hwithin := h.hidesWithin_event hkey
  have hwithin' := hidesWithin_events hinner hsi hbehind' hes'
  rw [blanksBefore_lines] at hwithin'
  have hwithin'' := hidesWithin_events hrest hsr hbehind hes''
  refine ⟨hhidden.isOpen (by omega) ?_,
    ⟨es', hinner, hsi, hbehind', ⟨_, _, _, hes'⟩, fun e hmem => hevents e (by simp [hmem]),
      hhidden.closer (by omega) (by omega) ?_⟩,
    es'', hrest, hsr, hbehind, ⟨_, _, _, hes''⟩, fun e hmem => hevents e (by simp [hmem]),
    hhidden.closer (by omega) (by omega) ?_⟩
  · refine List.forall_mem_cons.mpr ⟨fun r hr => (hwithin r hr).1, List.forall_mem_cons.mpr
      ⟨nofun, List.forall_mem_append.mpr ⟨fun e hmem r hr => ?_, List.forall_mem_cons.mpr
        ⟨nofun, fun e hmem r hr => ?_⟩⟩⟩⟩
    · have := hwithin' e hmem r hr
      omega
    · have := hwithin'' e hmem r hr
      omega
  · refine List.forall_mem_cons.mpr ⟨.inr fun r hr => .inl ?_, List.forall_mem_cons.mpr
      ⟨.inr nofun, List.forall_mem_append.mpr ⟨fun e hmem => .inl hmem, List.forall_mem_cons.mpr
        ⟨.inr nofun, fun e hmem => .inr fun r hr => .inr ?_⟩⟩⟩⟩
    · have := hwithin r hr
      omega
    · have := hwithin'' e hmem r hr
      omega
  · refine List.forall_mem_cons.mpr ⟨.inr fun r hr => .inl ?_, List.forall_mem_cons.mpr
      ⟨.inr nofun, List.forall_mem_append.mpr ⟨fun e hmem => .inr fun r hr => .inl ?_,
        List.forall_mem_cons.mpr ⟨.inr nofun, fun e hmem => .inl hmem⟩⟩⟩⟩
    · have := hwithin r hr
      omega
    · exact (hwithin' e hmem r hr).2

/-- The comments in an outline are found, and behind its last line there is none. -/
theorem found {o : Outline} (p : o.Placed m k line behind es) (htidy : o.IsTidy)
    (hquiet : m.commentsUpTo (line - 1) = []) :
    o.Found m k line ∧ m.commentsUpTo (line + o.height - 1) = [] := by
  induction o generalizing k line behind es with
  | done => exact ⟨trivial, hquiet⟩
  | leaf h v rest ih =>
    obtain ⟨htidy, htidy'⟩ := htidy
    obtain ⟨hkey, -, -⟩ := stands_leaf p.stands
    obtain ⟨hopen, hvalue, es', hrest⟩ := p.of_leaf
    have hquiet' : m.commentsUpTo (line + h.height + 1 + v.height - 1) = [] := by
      have hindex : line + h.height + 1 + v.height - 1 = line + h.height + v.height := by omega
      rwa [hindex]
    obtain ⟨hfound, hlast⟩ := ih hrest htidy' hquiet'
    refine ⟨⟨Heading.found htidy hkey hopen hquiet, Leaf.found hkey hopen, hfound⟩, ?_⟩
    have hindex : line + (leaf h v rest).height - 1 =
        line + h.height + 1 + v.height + rest.height - 1 := by
      rw [height]
      omega
    rwa [hindex]
  | nested h anchor inner rest ihi ihr =>
    obtain ⟨htidy, htidyi, htidyr⟩ := htidy
    obtain ⟨hkey, -, -⟩ := stands_nested p.stands
    obtain ⟨hopen, ⟨es', hinner⟩, es'', hrest⟩ := p.of_nested
    obtain ⟨hfoundi, hlasti⟩ := ihi hinner htidyi (Heading.commentsUpTo_key hkey)
    obtain ⟨hfoundr, hlastr⟩ := ihr hrest htidyr hlasti
    refine ⟨⟨Heading.found htidy hkey hopen hquiet, hfoundi, hfoundr⟩, ?_⟩
    have hindex : line + (nested h anchor inner rest).height - 1 =
        line + h.height + 1 + inner.height + rest.height - 1 := by
      rw [height]
      omega
    rwa [hindex]

/-! ## The document -/

/-- The lines of the document of an outline are those of the outline. -/
theorem lines_margin {o : Outline} (ho : o.Legible 0) (es : List Event) :
    (o.margin es).lines = o.lines 0 := by
  refine Text.lines_unlines fun l hl => ⟨fun hfeed => ?_, fun hreturn => ?_⟩
  · exact absurd (ho.inLine l hl _ hfeed).1 (by decide)
  · exact absurd (ho.inLine l hl _ (List.mem_of_getLast? hreturn)).1 (by decide)

/-- What is hidden in the document of an outline is hidden by its events. -/
theorem mem_hidden_margin {o : Outline} {r : Nat × Nat} :
    r ∈ (o.margin es).hidden ↔ ∃ e ∈ es, r ∈ hiddenLines? (o.margin es).lines e := by
  have hstart (position : Position) (ls : List (List Char)) :
      hiddenLines? ls ⟨.mappingStart none, position⟩ = none := rfl
  have hend (position : Position) (ls : List (List Char)) :
      hiddenLines? ls ⟨.mappingEnd, position⟩ = none := rfl
  show r ∈ List.filterMap (hiddenLines? (o.margin es).lines) _ ↔ _
  simp [List.mem_filterMap, hstart, hend]

/-- The comments in the document of an outline are found. -/
theorem found_margin {o : Outline} (ho : o.Legible 0) (htidy : o.IsTidy)
    (he : o.events 0 1 o.finish 0 [] = some es) : o.Found (o.margin es) 0 1 := by
  have hs : Stands (o.margin es).lines 1 (o.lines 0) [] :=
    ⟨[], by rw [lines_margin ho, List.append_nil, List.nil_append], rfl⟩
  refine (found ⟨ho, hs, EndsBlocks.nil 2, ⟨_, _, _, he⟩, ?_, ?_⟩ htidy rfl).1
  · exact fun e hmem r hr => mem_hidden_margin.mpr ⟨e, hmem, hr⟩
  · exact fun r hr => .inr (.inr (mem_hidden_margin.mp hr))

end Outline

end QueryBook
