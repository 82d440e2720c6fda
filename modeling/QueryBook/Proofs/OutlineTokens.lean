import QueryBook.Proofs.Outline
import QueryBook.Proofs.ValueLines

/-!
# The tokens of an outline

The document of an outline is lexed pair by pair. A pair ends the blocks of the pair before it, so
their ends come with its key; what is left open at the end of the outline ends with the source.
-/

namespace QueryBook

open Text (unlines)
open Yaml

/-! ## Tokens -/

namespace Heading

/-- Where a key is, the lines above it starting at a line. -/
def keyPosition (h : Heading) (k line : Nat) : Position := ⟨line + h.height, k + 1⟩

/-- Where the `:` behind a key is. -/
def colonPosition (h : Heading) (k line : Nat) : Position :=
  ⟨line + h.height, k + h.written.length + 1⟩

/-- Where a value on the line of its key is. -/
def valuePosition (h : Heading) (k line : Nat) : Position :=
  ⟨line + h.height, k + h.written.length + 3⟩

/-- The tokens of a key, after the ends of blocks inside its own; `starts` says that it opens its
block. -/
def tokens (h : Heading) (k line closing : Nat) (starts : Bool) : List Token :=
  List.replicate closing ⟨.blockEnd, h.keyPosition k line⟩ ++
    ((if starts then [⟨.blockMappingStart, h.colonPosition k line⟩] else []) ++
      [⟨.key, h.keyPosition k line⟩, scalarToken h.key (h.keyPosition k line),
        ⟨.value, h.colonPosition k line⟩])

end Heading

namespace Leaf

/-- The text that a literal block is read as, before empty lines. -/
def read (text : String) (blanks : Nat) : String :=
  String.ofList (Block.withBlanks text.toList blanks)

/-- Where the text of a literal block starts, its header being at a position. -/
def blockPosition (text : String) (k line : Nat) : Position :=
  ⟨line + 1 + Block.blanksBefore (Sql.bodyLines text.toList), k + 3⟩

/-- The token of a value at a position, whose key is at a column, before empty lines. -/
def token (k : Nat) (position : Position) (blanks : Nat) : Leaf → Token
  | text t => scalarToken t position
  | literal t => ⟨.scalar .literal (read t blanks), blockPosition t k position.line⟩
  | reference name => ⟨.reference name, position⟩

/-- The number of lines below that of the key. -/
def height (v : Leaf) : Nat := (v.lines 0).length

theorem length_lines (v : Leaf) (indent : Nat) : (v.lines indent).length = v.height := by
  cases v <;> simp [height, lines, Sql.blockLines]

end Leaf

/-- The token of an anchor. -/
def anchorTokens (position : Position) : Option String → List Token
  | some name => [⟨.anchor name, position⟩]
  | none => []

namespace Outline

/-- The number of lines. -/
def height : Outline → Nat
  | done => 0
  | leaf h v rest => h.height + 1 + v.height + rest.height
  | nested h _ inner rest => h.height + 1 + inner.height + rest.height

/-- The number of empty lines in front, before lines that begin with `after` empty ones. -/
def gap (after : Nat) : Outline → Nat
  | done => after
  | leaf h .. | nested h .. => h.blanks

/-- The number of blocks left open at the end, `closing` being so at the start. -/
def depth (closing : Nat) : Outline → Nat
  | done => closing
  | leaf _ _ rest => rest.depth 0
  | nested _ _ inner rest => rest.depth (inner.depth 0 + 1)

/-- The tokens of an outline at a column and from a line on. -/
def tokens (k line closing : Nat) (starts : Bool) (after : Nat) : Outline → List Token
  | done => []
  | leaf h v rest =>
    h.tokens k line closing starts ++
      v.token k (h.valuePosition k line) (rest.gap after) ::
        rest.tokens k (line + h.height + 1 + v.height) 0 false after
  | nested h anchor inner rest =>
    h.tokens k line closing starts ++
      (anchorTokens (h.valuePosition k line) anchor ++
        (inner.tokens (k + 2) (line + h.height + 1) 0 true (rest.gap after) ++
          rest.tokens k (line + h.height + 1 + inner.height) (inner.depth 0 + 1) false after))

/-! ## Legible outlines -/

end Outline

/-- Whether a character may stand in a line: it ends neither the line nor the source. -/
def InLine (c : Char) : Prop := isBreak c = false ∧ c ≠ '\x00'

instance (c : Char) : Decidable (InLine c) := inferInstanceAs (Decidable (_ ∧ _))

/-- What a heading needs to be read back: the comment is made of lines, the key is short enough to
be recognised by its `:`, and at the margin it does not look like the end of the document. -/
structure Heading.Legible (h : Heading) (k : Nat) : Prop where
  comment : ∀ line ∈ h.comment.lines, ∀ c ∈ line.toList, InLine c
  length : h.written.length ≤ 1024
  document : k = 0 → endsDocument h.key = false

/-- Whether a text is the name of an anchor. -/
def IsName (name : String) : Prop :=
  name.toList ≠ [] ∧ ∀ c ∈ name.toList, isAnchorChar c = true ∧ c ≠ '\x00'

/-- What a value needs to be read back. -/
def Leaf.Legible : Leaf → Prop
  | text _ => True
  | literal t => (∀ c ∈ t.toList, c ≠ '\r' ∧ c ≠ '\x00') ∧ Text.isAllBlank t = false
  | reference name => IsName name

/-- What an outline needs to be read back; mappings are not empty. -/
def Outline.Legible (k : Nat) : Outline → Prop
  | done => True
  | leaf h v rest => h.Legible k ∧ v.Legible ∧ rest.Legible k
  | nested h anchor inner rest => h.Legible k ∧ (∀ name ∈ anchor, IsName name) ∧ inner ≠ done ∧
      inner.Legible (k + 2) ∧ rest.Legible k

/-! ## Layout -/

/-- A line of a comment is a comment. -/
theorem isVoid_commentLine (indent : Nat) {line : String}
    (h : ∀ c ∈ line.toList, InLine c) : IsVoid (commentLine indent line) := by
  unfold commentLine
  refine .inr ⟨indent, _, rfl, ?_⟩
  intro c hc
  split at hc
  · cases hc
  · rcases List.mem_cons.mp hc with rfl | hc
    · rfl
    · exact (h c hc).1

/-- The lines above a key are empty or comments. -/
theorem Heading.Legible.isVoid {h : Heading} {k : Nat} (hh : h.Legible k) :
    ∀ l ∈ h.above k, IsVoid l := by
  intro l hl
  rw [Heading.above, List.mem_append, List.mem_map] at hl
  rcases hl with hl | ⟨line, hline, rfl⟩
  · exact .inl (List.eq_of_mem_replicate hl)
  · exact isVoid_commentLine k (hh.comment line hline)

/-- A heading is outdented at its column. -/
theorem Heading.Legible.outdented {h : Heading} {k : Nat} (hh : h.Legible k) (value : List Char)
    (ls : List (List Char)) : Outdented k (h.lines k value ++ ls) := by
  obtain ⟨x, xs, hx, hwhite, hbreak, hstart⟩ := scalar_cons h.key
  have hkey : Outdented k ((List.replicate k ' ' ++ (h.written ++ ':' :: value)) :: ls) := by
    rw [Heading.written, hx]
    exact .text (Nat.le_refl k) hwhite hbreak fun hh => hstart (by simp [hh])
  have hcomment : ∀ lines : List String, (∀ line ∈ lines, ∀ c ∈ line.toList, InLine c) →
      Outdented k (lines.map (commentLine k) ++
        (List.replicate k ' ' ++ (h.written ++ ':' :: value)) :: ls) := by
    intro lines hlines
    induction lines with
    | nil => exact hkey
    | cons line lines ih =>
      refine .comment (Nat.le_refl k) ?_ (ih fun l hl => hlines l (List.mem_cons_of_mem _ hl))
      intro c hc
      split at hc
      · cases hc
      · rcases List.mem_cons.mp hc with rfl | hc
        · rfl
        · exact (hlines line List.mem_cons_self c hc).1
  rw [Heading.lines, Heading.above, List.append_assoc, List.append_assoc]
  exact (hcomment _ hh.comment).blanks h.blanks

/-- The lines in front of a heading begin with its empty ones. -/
theorem Heading.blanksBefore_lines (h : Heading) (k : Nat) (value : List Char)
    (ls : List (List Char)) : Block.blanksBefore (h.lines k value ++ ls) = h.blanks := by
  have hcomment : Block.blanksBefore (h.comment.lines.map (commentLine k) ++
      (List.replicate k ' ' ++ (h.written ++ ':' :: value)) :: ls) = 0 := by
    cases h.comment.lines with
    | nil => exact Block.blanksBefore_cons (by simp) ls
    | cons line lines => exact Block.blanksBefore_cons (by simp [commentLine]) _
  rw [Heading.lines, Heading.above, List.append_assoc, List.append_assoc,
    Block.blanksBefore_replicate_append]
  exact (congrArg _ hcomment).trans (Nat.add_zero _)

namespace Outline

variable {k : Nat} {ls : List (List Char)}

/-- An outline is outdented at its column. -/
theorem Legible.outdented {o : Outline} (ho : o.Legible k) (hls : Outdented k ls) :
    Outdented k (o.lines k ++ ls) := by
  cases o with
  | done => exact hls
  | leaf h v rest =>
    rw [lines, List.append_assoc]
    exact ho.1.outdented _ _
  | nested h anchor inner rest =>
    rw [lines, List.append_assoc]
    exact ho.1.outdented _ _

/-- The lines of an outline begin with the empty ones of its first heading. -/
theorem blanksBefore_lines (o : Outline) (k : Nat) (ls : List (List Char)) :
    Block.blanksBefore (o.lines k ++ ls) = o.gap (Block.blanksBefore ls) := by
  cases o with
  | done => rfl
  | leaf h v rest =>
    rw [lines, List.append_assoc]
    exact h.blanksBefore_lines _ _ _
  | nested h anchor inner rest =>
    rw [lines, List.append_assoc]
    exact h.blanksBefore_lines _ _ _

@[simp] theorem length_lines (o : Outline) (k : Nat) : (o.lines k).length = o.height := by
  induction o generalizing k with
  | done => rfl
  | leaf h v rest ih =>
    simp only [lines, Heading.lines, List.length_append, Heading.length_above, List.length_singleton,
      Leaf.length_lines, ih, height]
    omega
  | nested h anchor inner rest ihi ihr =>
    simp only [lines, Heading.lines, List.length_append, Heading.length_above, List.length_singleton,
      ihi, ihr, height]
    omega

end Outline

/-! ## Lexing -/

/-- The columns of blocks that lie each two columns deeper than the one around it, inside a column;
innermost first. -/
def deeperBlocks (k : Nat) : Nat → List Nat
  | 0 => []
  | d + 1 => deeperBlocks (k + 2) d ++ [k + 2]

/-- They are deeper than the column. -/
theorem lt_of_mem_deeperBlocks {k d b : Nat} (h : b ∈ deeperBlocks k d) : k < b := by
  induction d generalizing k with
  | zero => cases h
  | succ d ih =>
    rw [deeperBlocks, List.mem_append, List.mem_singleton] at h
    rcases h with h | rfl
    · have := ih h
      omega
    · omega

@[simp] theorem length_deeperBlocks (k d : Nat) : (deeperBlocks k d).length = d := by
  induction d generalizing k with
  | zero => rfl
  | succ d ih => rw [deeperBlocks, List.length_append, ih, List.length_singleton]

namespace Yaml.Lexer

/-- Behind a key its block is the innermost one. -/
theorem Fits.blocksWith {k : Nat} {closed kept : List Nat} (h : Fits k closed kept) :
    ∃ outer, blocksWith kept k = k :: outer := by
  obtain ⟨-, hhead | ⟨-, hdeeper⟩⟩ := h
  · cases kept with
    | nil => cases hhead
    | cons b outer =>
      cases hhead
      exact ⟨outer, if_neg (Int.lt_irrefl _)⟩
  · exact ⟨kept, if_pos hdeeper⟩

@[simp] theorem blocksWith_self (k : Nat) (outer : List Nat) :
    blocksWith (k :: outer) k = k :: outer :=
  if_neg (Int.lt_irrefl _)

/-- Deeper than the innermost block a block is opened. -/
theorem blocksWith_deeper (k : Nat) (outer : List Nat) :
    blocksWith (k :: outer) (k + 2) = (k + 2) :: k :: outer :=
  if_pos (Int.ofNat_lt.mpr (by omega))

@[simp] theorem not_blockIndent_lt_self (k : Nat) (outer : List Nat) :
    ¬ blockIndent (k :: outer) < k :=
  Int.lt_irrefl _

/-- At the column of a block that stays open, blocks inside it are closed. -/
theorem fits_deeperBlocks (k d : Nat) (outer : List Nat) :
    Fits k (deeperBlocks k d) (k :: outer) :=
  ⟨fun _ hb => lt_of_mem_deeperBlocks hb, .inl rfl⟩

/-- Deeper than the innermost block none is closed. -/
theorem fits_deeper (k : Nat) (outer : List Nat) : Fits (k + 2) [] (k :: outer) :=
  ⟨fun _ hb => absurd hb List.not_mem_nil, .inr ⟨rfl, Int.ofNat_lt.mpr (by omega)⟩⟩

end Yaml.Lexer

open Yaml.Lexer

variable {s : Lexer} {ls : List (List Char)} {k line : Nat} {stack : List Token}
  {kept : List Nat}

/-- The lines above a key, the key and its `:` are read. -/
theorem Heading.lex {h : Heading} (hh : h.Legible k) {closing : Nat} {value : List Char}
    (hs : s.Awaits (h.lines k value ++ ls) line stack (deeperBlocks k closing ++ kept))
    (hfits : Fits k (deeperBlocks k closing) kept) (hvalue : ∀ c ∈ value.head?, c = ' ') :
    ∃ s' outer, s.run = s'.run ∧ blocksWith kept k = k :: outer ∧
      AwaitsValue s'
        ((h.tokens k line closing (blockIndent kept < k)).reverse ++ stack)
        (k :: outer) (line + h.height) (k + h.written.length + 1)
        (value ++ '\n' :: unlines ls) := by
  rw [Heading.lines, List.append_assoc] at hs
  have hkey := hs.skipLines hh.isVoid
  rw [Heading.length_above] at hkey
  obtain ⟨s', hrun, hs'⟩ := Awaits.key hkey hfits hh.length hh.document hvalue
  obtain ⟨outer, houter⟩ := hfits.blocksWith
  refine ⟨s', outer, hrun, houter, ?_⟩
  have htokens : (h.tokens k line closing (blockIndent kept < k)).reverse ++ stack =
      ⟨.value, h.colonPosition k line⟩ :: scalarToken h.key (h.keyPosition k line) ::
        ⟨.key, h.keyPosition k line⟩ :: (opening kept k (h.colonPosition k line) ++
          (List.replicate (deeperBlocks k closing).length ⟨.blockEnd, h.keyPosition k line⟩ ++
            stack)) := by
    rw [length_deeperBlocks, Heading.tokens, opening]
    by_cases hstarts : blockIndent kept < k <;> simp [hstarts]
  rw [htokens, ← houter]
  exact hs'

/-- A value is read up to the lines behind it. -/
theorem Leaf.lex {v : Leaf} (hv : v.Legible) {outer : List Nat} {column : Nat}
    (hs : AwaitsValue s stack (k :: outer) line column
      (v.inline ++ '\n' :: unlines (v.lines (k + 2) ++ ls)))
    (hcolumn : k < column) (hls : Outdented k ls) :
    ∃ s' : Lexer, s.run = s'.run ∧ s'.Awaits ls (line + 1 + v.height)
      (v.token k ⟨line, column + 2⟩ (Block.blanksBefore ls) :: stack) (k :: outer) := by
  have hcolumn' : blockIndent (k :: outer) < column := Int.ofNat_lt.mpr hcolumn
  cases v with
  | text t => exact AwaitsValue.run_eq_of_text hs hcolumn' (Int.le_refl _) hls
  | literal t =>
    have hreturn : '\r' ∉ t.toList := fun hmem => (hv.1 '\r' hmem).1 rfl
    have hblock : AwaitsValue s stack (k :: outer) line column
        (' ' :: (Sql.literalBlock t.toList (k + 2) ++ '\n' :: unlines ls)) := by
      rw [Sql.literalBlock_eq, ← Text.unlines_append]
      exact hs
    rw [← length_lines _ (k + 2)]
    exact AwaitsValue.run_eq_of_literal hblock hcolumn hreturn (Sql.body_ne_nil hv.2) hls
  | reference name =>
    obtain ⟨s', hrun, hs'⟩ := AwaitsValue.run_eq_of_reference hs hcolumn' hv.1 fun c hc => (hv.2 c hc).1
    rw [String.ofList_toList] at hs'
    exact ⟨s', hrun, hs'⟩

/-- An anchor, if there is one, is read up to the lines of its mapping. -/
theorem lex_anchor {anchor : Option String} (hanchor : ∀ name ∈ anchor, IsName name)
    {outer : List Nat} {column : Nat}
    (hs : AwaitsValue s stack (k :: outer) line column (anchorText anchor ++ '\n' :: unlines ls))
    (hcolumn : k < column) :
    ∃ s' : Lexer, s.run = s'.run ∧ s'.Awaits ls (line + 1)
      ((anchorTokens ⟨line, column + 2⟩ anchor).reverse ++ stack) (k :: outer) := by
  cases anchor with
  | none => exact ⟨s, rfl, hs.awaits⟩
  | some name =>
    obtain ⟨hne, hname⟩ := hanchor name rfl
    obtain ⟨s', hrun, hs'⟩ := AwaitsValue.run_eq_of_anchor hs (Int.ofNat_lt.mpr hcolumn) hne
      fun c hc => (hname c hc).1
    rw [String.ofList_toList] at hs'
    exact ⟨s', hrun, hs'⟩

/-- The tokens of an outline that begins with a value, the last one first. -/
theorem Outline.reverse_tokens_leaf (h : Heading) (v : Leaf) (rest : Outline)
    (k line closing after : Nat) (starts : Bool) (stack : List Token) :
    ((leaf h v rest).tokens k line closing starts after).reverse ++ stack =
      (rest.tokens k (line + h.height + 1 + v.height) 0 false after).reverse ++
        (v.token k (h.valuePosition k line) (rest.gap after) ::
          ((h.tokens k line closing starts).reverse ++ stack)) := by
  rw [tokens]
  simp

/-- The tokens of an outline that begins with a mapping, the last one first. -/
theorem Outline.reverse_tokens_nested (h : Heading) (anchor : Option String) (inner rest : Outline)
    (k line closing after : Nat) (starts : Bool) (stack : List Token) :
    ((nested h anchor inner rest).tokens k line closing starts after).reverse ++ stack =
      (rest.tokens k (line + h.height + 1 + inner.height) (inner.depth 0 + 1) false
        after).reverse ++
        ((inner.tokens (k + 2) (line + h.height + 1) 0 true (rest.gap after)).reverse ++
          ((anchorTokens (h.valuePosition k line) anchor).reverse ++
            ((h.tokens k line closing starts).reverse ++ stack))) := by
  rw [tokens]
  simp

/-- An outline is lexed to its tokens, up to the lines behind it. -/
theorem Outline.lex {o : Outline} (ho : o.Legible k) {closing : Nat}
    (hs : s.Awaits (o.lines k ++ ls) line stack (deeperBlocks k closing ++ kept))
    (hfits : Fits k (deeperBlocks k closing) kept) (hdone : o = done → kept.head? = some k)
    (hls : Outdented k ls) :
    ∃ (s' : Lexer) (outer : List Nat), s.run = s'.run ∧ blocksWith kept k = k :: outer ∧
      s'.Awaits ls (line + o.height)
        ((o.tokens k line closing (blockIndent kept < k) (Block.blanksBefore ls)).reverse ++ stack)
        (deeperBlocks k (o.depth closing) ++ k :: outer) := by
  induction o generalizing s line stack kept closing k ls with
  | done =>
    cases kept with
    | nil => cases hdone rfl
    | cons b outer =>
      cases hdone rfl
      exact ⟨s, outer, rfl, blocksWith_self k outer, hs⟩
  | leaf h v rest ih =>
    obtain ⟨hh, hv, hrest⟩ := ho
    rw [lines, List.append_assoc, List.append_assoc] at hs
    have hafter : Outdented k (rest.lines k ++ ls) := hrest.outdented hls
    obtain ⟨s₁, outer, hrun₁, houter, hs₁⟩ := h.lex hh hs hfits (by
      cases v <;> simp [Leaf.inline])
    obtain ⟨s₂, hrun₂, hs₂⟩ := Leaf.lex hv hs₁ (by omega) hafter
    obtain ⟨s₃, outer', hrun₃, houter', hs₃⟩ := ih hrest hs₂ (fits_deeperBlocks k 0 outer)
      (fun _ => rfl) hls
    rw [blocksWith_self] at houter'
    cases houter'
    refine ⟨s₃, outer, hrun₁.trans (hrun₂.trans hrun₃), houter, ?_⟩
    -- The block of the keys is open by now, so the rest does not open it again.
    rw [decide_eq_false (not_blockIndent_lt_self k outer), blanksBefore_lines] at hs₃
    rw [reverse_tokens_leaf, height, ← Nat.add_assoc, ← Nat.add_assoc, ← Nat.add_assoc]
    exact hs₃
  | nested h anchor inner rest ihi ihr =>
    obtain ⟨hh, hanchor, hinner, hi, hrest⟩ := ho
    rw [lines, List.append_assoc, List.append_assoc] at hs
    have hafter : Outdented k (rest.lines k ++ ls) := hrest.outdented hls
    obtain ⟨s₁, outer, hrun₁, houter, hs₁⟩ := h.lex hh hs hfits (by
      cases anchor <;> simp [anchorText])
    obtain ⟨s₂, hrun₂, hs₂⟩ := lex_anchor hanchor hs₁ (by omega)
    -- The inner mapping opens a block, and leaves it open to the lines behind it.
    have hdeeper : Fits (k + 2) (deeperBlocks (k + 2) 0) (k :: outer) := fits_deeper k outer
    obtain ⟨s₃, outer₃, hrun₃, houter₃, hs₃⟩ := ihi hi hs₂ hdeeper (fun h => absurd h hinner)
      (hafter.mono (by omega))
    rw [blocksWith_deeper] at houter₃
    cases houter₃
    have hblocks : deeperBlocks (k + 2) (inner.depth 0) ++ (k + 2) :: k :: outer =
        deeperBlocks k (inner.depth 0 + 1) ++ k :: outer := by
      simp [deeperBlocks]
    have hstarts : decide (blockIndent (k :: outer) < ((k + 2 : Nat) : Int)) = true :=
      decide_eq_true (Int.ofNat_lt.mpr (by omega))
    rw [hblocks, hstarts, blanksBefore_lines] at hs₃
    obtain ⟨s₄, outer₄, hrun₄, houter₄, hs₄⟩ := ihr hrest hs₃ (fits_deeperBlocks k _ outer)
      (fun _ => rfl) hls
    rw [blocksWith_self] at houter₄
    cases houter₄
    refine ⟨s₄, outer, hrun₁.trans (hrun₂.trans (hrun₃.trans hrun₄)), houter, ?_⟩
    rw [decide_eq_false (not_blockIndent_lt_self k outer)] at hs₄
    rw [reverse_tokens_nested, height, ← Nat.add_assoc, ← Nat.add_assoc, ← Nat.add_assoc]
    exact hs₄

/-! ## The document -/

/-- The characters of the lines of a text's block are spaces, those of the text and of the header.
-/
theorem mem_blockLines {text l : List Char} {indent : Nat} {c : Char}
    (hl : l ∈ Sql.blockLines text indent) (hc : c ∈ l) : c = ' ' ∨ c ∈ text ∧ c ≠ '\n' := by
  rw [Sql.blockLines, List.mem_append, List.mem_map] at hl
  rcases hl with ⟨piece, hpiece, rfl⟩ | hl
  · rw [Sql.blockLine] at hc
    split at hc
    · cases hc
    · rcases List.mem_append.mp hc with hc | hc
      · exact .inl (List.eq_of_mem_replicate hc)
      · refine .inr ⟨?_, ?_⟩
        · rw [← Sql.body_append text]
          exact List.mem_append_left _ (Text.mem_of_mem_splitOnChar hpiece hc)
        · rintro rfl
          exact Text.not_mem_of_mem_splitOnChar hpiece hc
  · rw [List.eq_of_mem_replicate hl] at hc
    cases hc

/-- A character of a written text stands in a line. -/
theorem inLine_scalar {text : String} {c : Char} (h : c ∈ (Canonical.scalar text).toList) :
    InLine c := by
  have hcontrol := not_isControl_scalar h
  refine ⟨(Plain.isWhite_of_not_isControl hcontrol).2, ?_⟩
  rintro rfl
  cases hcontrol

/-- The header of a block stands in a line. -/
theorem inLine_header {text : List Char} {c : Char} (h : c ∈ Sql.header text) : InLine c := by
  have hall : (Sql.header text).all (fun c => decide (InLine c)) = true := by
    unfold Sql.header
    split_ifs <;> decide
  exact of_decide_eq_true (List.all_eq_true.mp hall c h)

/-- A character of a name stands in a line. -/
theorem IsName.inLine {name : String} (h : IsName name) : ∀ c ∈ name.toList, InLine c := by
  intro c hc
  obtain ⟨hanchor, hnul⟩ := h.2 c hc
  refine ⟨?_, hnul⟩
  simp only [isAnchorChar, Bool.not_eq_true', Bool.or_eq_false_iff] at hanchor
  exact hanchor.1.1.2

namespace Leaf

/-- What stands behind the `:` of a legible value is part of a line. -/
theorem Legible.inLine {v : Leaf} (hv : v.Legible) : ∀ c ∈ v.inline, InLine c := by
  intro c hc
  cases v with
  | text t =>
    rcases List.mem_cons.mp hc with rfl | hc
    · decide
    · exact inLine_scalar hc
  | literal t =>
    rcases List.mem_cons.mp hc with rfl | hc
    · decide
    · exact inLine_header hc
  | reference name =>
    rcases List.mem_cons.mp hc with rfl | hc
    · decide
    · rcases List.mem_cons.mp hc with rfl | hc
      · decide
      · exact IsName.inLine hv c hc

/-- So are the lines below it. -/
theorem Legible.inLine_lines {v : Leaf} (hv : v.Legible) {indent : Nat} :
    ∀ l ∈ v.lines indent, ∀ c ∈ l, InLine c := by
  intro l hl c hc
  cases v with
  | text t => cases hl
  | literal t =>
    rcases mem_blockLines hl hc with rfl | ⟨hmem, hfeed⟩
    · decide
    · obtain ⟨hreturn, hnul⟩ := hv.1 c hmem
      exact ⟨by simp [isBreak, hfeed, hreturn], hnul⟩
  | reference name => cases hl

end Leaf

/-- An anchor is part of a line. -/
theorem inLine_anchorText {anchor : Option String} (h : ∀ name ∈ anchor, IsName name) :
    ∀ c ∈ anchorText anchor, InLine c := by
  intro c hc
  cases anchor with
  | none => cases hc
  | some name =>
    rcases List.mem_cons.mp hc with rfl | hc
    · decide
    · rcases List.mem_cons.mp hc with rfl | hc
      · decide
      · exact (h name rfl).inLine c hc

/-- The lines of a legible heading hold no end of a line or of the source. -/
theorem Heading.Legible.inLine {h : Heading} {k : Nat} (hh : h.Legible k) {value : List Char}
    (hvalue : ∀ c ∈ value, InLine c) : ∀ l ∈ h.lines k value, ∀ c ∈ l, InLine c := by
  intro l hl c hc
  have hspace : ∀ c ∈ List.replicate k ' ', InLine c := by
    intro c hc
    rw [List.eq_of_mem_replicate hc]
    decide
  rw [Heading.lines, Heading.above, List.mem_append, List.mem_append, List.mem_map,
    List.mem_singleton] at hl
  rcases hl with (hl | ⟨line, hline, rfl⟩) | rfl
  · rw [List.eq_of_mem_replicate hl] at hc
    cases hc
  · rw [commentLine, List.mem_append, List.mem_cons] at hc
    rcases hc with hc | rfl | hc
    · exact hspace c hc
    · decide
    · split at hc
      · cases hc
      · rcases List.mem_cons.mp hc with rfl | hc
        · decide
        · exact hh.comment line hline c hc
  · rw [List.mem_append, List.mem_append, List.mem_cons] at hc
    rcases hc with hc | hc | rfl | hc
    · exact hspace c hc
    · exact inLine_scalar hc
    · decide
    · exact hvalue c hc

/-- No line of a legible outline holds the end of a line or of the source. -/
theorem Outline.Legible.inLine {o : Outline} {k : Nat} (ho : o.Legible k) :
    ∀ l ∈ o.lines k, ∀ c ∈ l, InLine c := by
  induction o generalizing k with
  | done =>
    intro l hl
    cases hl
  | leaf h v rest ih =>
    obtain ⟨hh, hv, hrest⟩ := ho
    intro l hl
    rw [lines, List.mem_append, List.mem_append] at hl
    rcases hl with hl | hl | hl
    · exact hh.inLine hv.inLine l hl
    · exact hv.inLine_lines l hl
    · exact ih hrest l hl
  | nested h anchor inner rest ihi ihr =>
    obtain ⟨hh, hanchor, -, hi, hrest⟩ := ho
    intro l hl
    rw [lines, List.mem_append, List.mem_append] at hl
    rcases hl with hl | hl | hl
    · exact hh.inLine (inLine_anchorText hanchor) l hl
    · exact ihi hi l hl
    · exact ihr hrest l hl

/-- The document of a legible outline is lexed to its tokens and the ends of what is open. -/
theorem Outline.tokens_lines {o : Outline} (ho : o.Legible 0) (hne : o ≠ done) :
    Yaml.tokens (unlines (o.lines 0)) = o.tokens 0 1 0 true 0 ++
      (List.replicate (o.depth 0 + 1) ⟨.blockEnd, ⟨1 + o.height, 1⟩⟩ ++
        [⟨.streamEnd, ⟨1 + o.height, 1⟩⟩]) := by
  have hsource : (unlines (o.lines 0)).takeWhile (· ≠ '\x00') = unlines (o.lines 0) := by
    refine List.takeWhile_eq_self_iff.mpr fun c hc => ?_
    obtain ⟨l, hl, hc⟩ := List.mem_flatMap.mp hc
    rw [decide_eq_true_eq]
    rcases List.mem_append.mp hc with hc | hc
    · exact (ho.inLine l hl c hc).2
    · rw [List.mem_singleton.mp hc]
      decide
  have hstart : Awaits (Lexer.ofSource (unlines (o.lines 0))) (o.lines 0 ++ []) 1 []
      (deeperBlocks 0 0 ++ []) := by
    refine ⟨⟨false, rfl, rfl, rfl, rfl⟩, rfl, rfl, 0, ?_⟩
    rw [List.append_nil]
    rfl
  have hfits : Fits 0 (deeperBlocks 0 0) [] :=
    ⟨fun _ hb => absurd hb List.not_mem_nil, .inr ⟨rfl, by decide⟩⟩
  obtain ⟨s, outer, hrun, houter, hs⟩ := Outline.lex ho hstart hfits (fun h => absurd h hne) .nil
  cases houter
  have hend := hs.run_eq fun b hb => lt_of_mem_deeperBlocks hb
  rw [length_deeperBlocks] at hend
  rw [Yaml.tokens, hsource, hrun, hend]
  simp only [List.append_nil, List.reverse_reverse]
  rfl

end QueryBook
