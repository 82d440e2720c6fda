import QueryBook.Document
import QueryBook.Proofs.OutlineTokens

/-!
# Lines that scalars hide

A scalar written on one line hides no line from the search for comments. A literal block hides its
lines and the empty ones behind it, and none of the keys and comments that follow.
-/

namespace QueryBook.Document

open Yaml
open Canonical (escapedChar)

variable {lines : List (List Char)}

/-! ## Quoted scalars -/

/-- Two single quotes count as two characters between double quotes. -/
theorem closesQuote_single (rest : List Char) :
    closesQuote false ('\'' :: rest) = closesQuote false rest := by
  induction rest with
  | nil => rfl
  | cons c rest ih =>
    by_cases hc : c = '\''
    · subst hc
      rw [closesQuote, ih]
    · rw [closesQuote]
      · rfl
      · rintro rest' -
        rintro ⟨⟩
        exact hc rfl
      · rintro c' rest' ⟨⟩

/-- A character other than a backslash is the closing quote or comes before it. -/
theorem closesQuote_cons {c : Char} (hc : c ≠ '\\') (rest : List Char) :
    closesQuote false (c :: rest) = (decide (c = '"') || closesQuote false rest) := by
  by_cases hsingle : c = '\''
  · subst hsingle
    rw [closesQuote_single]
    rfl
  · rw [closesQuote]
    · rfl
    · rintro rest' rfl
      exact absurd rfl hsingle
    · rintro c' rest' rfl
      exact absurd rfl hc

/-- Characters other than backslashes come before the closing quote or hold it. -/
theorem closesQuote_append {chunk rest : List Char} (hchunk : ∀ c ∈ chunk, c ≠ '\\')
    (h : closesQuote false rest = true) : closesQuote false (chunk ++ rest) = true := by
  induction chunk with
  | nil => exact h
  | cons c chunk ih =>
    rw [List.forall_mem_cons] at hchunk
    rw [List.cons_append, closesQuote_cons hchunk.1, ih hchunk.2, Bool.or_true]

/-- A character between double quotes comes before the closing quote. -/
theorem closesQuote_escapedChar (c : Char) {rest : List Char} (h : closesQuote false rest = true) :
    closesQuote false (escapedChar c ++ rest) = true := by
  have hwritten := Quoted.escaping_escapedChar c
  generalize escapedChar c = written at hwritten ⊢
  cases hwritten with
  | plain _ _ hslash => rw [List.singleton_append, closesQuote_cons hslash, h, Bool.or_true]
  | escape first digits _ _ hdigits =>
    rw [List.cons_append, List.cons_append, closesQuote]
    exact closesQuote_append (fun d hd => (hdigits d hd).2) h

/-- The quote behind a text between double quotes is found. -/
theorem closesQuote_doubleQuoted (text rest : List Char) :
    closesQuote false (text.flatMap escapedChar ++ '"' :: rest) = true := by
  induction text with
  | nil => rw [List.flatMap_nil, List.nil_append, closesQuote_cons (by decide)]; rfl
  | cons c text ih =>
    rw [List.flatMap_cons, List.append_assoc]
    exact closesQuote_escapedChar c ih

/-- A scalar on one line hides no line. -/
theorem hiddenLines?_scalar {text : String} {position : Position} {before rest : List Char}
    (hline : lines[position.line - 1]? =
      some (before ++ ((Canonical.scalar text).toList ++ rest)))
    (hcolumn : position.column = before.length + 1) :
    ∀ r ∈ hiddenLines? lines ⟨.scalar text (styleOf text) none, position⟩,
      r.1 = position.line + 1 ∧ r.2 ≤ position.line := by
  intro r hr
  unfold styleOf at hr
  by_cases hsafe : Canonical.isPlainSafe text = true
  · rw [if_pos hsafe] at hr
    cases hr
  · rw [if_neg hsafe] at hr
    rw [Canonical.scalar, if_neg hsafe, Quoted.toList_doubleQuoted] at hline
    cases hr
    refine ⟨rfl, ?_⟩
    have hfirst : ((lines.drop (position.line - 1)).modifyHead (·.drop position.column))[0]? =
        some (text.toList.flatMap escapedChar ++ '"' :: rest) := by
      rw [List.getElem?_modifyHead_zero, List.getElem?_drop, Nat.add_zero, hline, hcolumn]
      simp
    -- the closing quote is on the line of the opening one
    have hclosing : closingLine false
        ((lines.drop (position.line - 1)).modifyHead (·.drop position.column)) = 0 := by
      rw [closingLine]
      cases hl : (lines.drop (position.line - 1)).modifyHead (·.drop position.column) with
      | nil =>
        rw [hl] at hfirst
        cases hfirst
      | cons l ls =>
        rw [hl] at hfirst
        cases hfirst
        rw [List.findIdx_cons, closesQuote_doubleQuoted]
        rfl
    show min (position.line + closingLine false _) lines.length ≤ position.line
    rw [hclosing]
    exact Nat.min_le_left _ _

/-! ## Literal blocks -/

/-- Whether no block indented by a number of spaces goes on in some lines but for the empty ones in
front. -/
def EndsBlocks (n : Nat) (ls : List (List Char)) : Prop :=
  (ls.takeWhile (isInBlock n)).length ≤ Block.blanksBefore ls

theorem EndsBlocks.nil (n : Nat) : EndsBlocks n [] := Nat.le_refl 0

/-- Empty lines in front do not matter. -/
theorem EndsBlocks.blanks {n : Nat} {ls : List (List Char)} (h : EndsBlocks n ls) (b : Nat) :
    EndsBlocks n (List.replicate b [] ++ ls) := by
  have hin : ∀ l ∈ List.replicate b [], isInBlock n l = true := by
    intro l hl
    rw [List.eq_of_mem_replicate hl]
    rfl
  unfold EndsBlocks at h ⊢
  rw [List.takeWhile_append_of_pos hin, List.length_append, List.length_replicate,
    Block.blanksBefore_replicate_append]
  omega

/-- A line that is less indented ends a block. -/
theorem EndsBlocks.cons {n : Nat} {l : List Char} (h : isInBlock n l = false)
    (ls : List (List Char)) : EndsBlocks n (l :: ls) := by
  unfold EndsBlocks
  rw [List.takeWhile_cons_of_neg (by simp [h])]
  exact Nat.zero_le _

theorem EndsBlocks.mono {n n' : Nat} {ls : List (List Char)} (h : EndsBlocks n ls) (hn : n ≤ n') :
    EndsBlocks n' ls := by
  refine Nat.le_trans ?_ h
  clear h
  induction ls with
  | nil => exact Nat.le_refl 0
  | cons l ls ih =>
    by_cases hl : isInBlock n' l = true
    · have hl' : isInBlock n l = true := by
        rw [isInBlock, Bool.or_eq_true, decide_eq_true_eq] at hl ⊢
        exact hl.imp_right fun h => Nat.le_trans hn h
      rw [List.takeWhile_cons_of_pos hl, List.takeWhile_cons_of_pos hl']
      exact Nat.succ_le_succ ih
    · rw [List.takeWhile_cons_of_neg hl]
      exact Nat.zero_le _

/-- A line that begins with some spaces and text is in no block that is indented deeper. -/
theorem isInBlock_line {k n : Nat} (hk : k < n) {x : Char} (hx : x ≠ ' ') {more : List Char}
    {c : Char} (hmem : c ∈ x :: more) (hc : Text.isBlank c = false) :
    isInBlock n (List.replicate k ' ' ++ x :: more) = false := by
  have htake : ((List.replicate k ' ' ++ x :: more).takeWhile (· = ' ')).length = k := by
    rw [List.takeWhile_append_of_pos (by simp), List.takeWhile_cons_of_neg (by simp [hx])]
    simp
  rw [isInBlock, htake, Bool.or_eq_false_iff, List.all_eq_false, decide_eq_false_iff_not]
  exact ⟨⟨c, List.mem_append_right _ hmem, by simp [hc]⟩, by omega⟩

/-- The lines of the block of a text belong to it. -/
theorem isInBlock_blockLine {n : Nat} {text l : List Char} (h : l ∈ Sql.blockLines text n) :
    isInBlock n l = true := by
  rw [Sql.blockLines, List.mem_append, List.mem_map] at h
  rcases h with ⟨piece, -, rfl⟩ | h
  · rw [Sql.blockLine]
    split
    · rfl
    · rw [isInBlock, List.takeWhile_append_of_pos (by simp), Bool.or_eq_true]
      right
      simp
  · rw [List.eq_of_mem_replicate h]
    rfl

/-- In a text that is not blank some line is not empty. -/
theorem blanksBefore_bodyLines_lt {text : List Char} (hreturn : '\r' ∉ text)
    (hne : Sql.body text ≠ []) (n : Nat) :
    Block.blanksBefore (Sql.bodyLines text) < (Sql.blockLines text n).length := by
  have hpieces {ps : List (List Char)} (hps : Block.Pieces ps) (hne : ps ≠ []) :
      Block.blanksBefore ps < ps.length := by
    induction ps with
    | nil => exact absurd rfl hne
    | cons l ps ih =>
      cases l with
      | nil =>
        rw [Block.blanksBefore_blank, List.length_cons]
        exact Nat.succ_lt_succ (ih hps.tail hps.ne_nil)
      | cons c l =>
        rw [Block.blanksBefore_cons (by simp)]
        exact Nat.succ_pos _
  have := hpieces (Block.pieces_bodyLines hreturn hne) (Text.splitOnChar_ne_nil _ _)
  rw [Sql.blockLines, List.length_append, List.length_map]
  omega

/-- The lines of the block of a text and the empty ones behind it are hidden. -/
theorem blockLines?_literal {text read : String} {above behind : List (List Char)} {k : Nat}
    (hreturn : '\r' ∉ text.toList) (hblank : Text.isAllBlank text = false)
    (hread : Text.isAllBlank read = false) :
    blockLines? (above ++ (Sql.blockLines text.toList (k + 2) ++ behind))
        (Leaf.blockPosition text k above.length) read =
      some (above.length + 1 + Block.blanksBefore (Sql.bodyLines text.toList),
        above.length + (Sql.blockLines text.toList (k + 2)).length +
          (behind.takeWhile (isInBlock (k + 2))).length) := by
  have hlt := blanksBefore_bodyLines_lt hreturn (Sql.body_ne_nil hblank) (k + 2)
  have hdrop : (above ++ (Sql.blockLines text.toList (k + 2) ++ behind)).drop
      (above.length + 1 + Block.blanksBefore (Sql.bodyLines text.toList)) =
        (Sql.blockLines text.toList (k + 2)).drop
          (1 + Block.blanksBefore (Sql.bodyLines text.toList)) ++ behind := by
    rw [Nat.add_assoc, List.drop_length_add_append, List.drop_append_of_le_length (by omega)]
  have hin : ∀ l ∈ (Sql.blockLines text.toList (k + 2)).drop
      (1 + Block.blanksBefore (Sql.bodyLines text.toList)), isInBlock (k + 2) l = true :=
    fun l hl => isInBlock_blockLine (List.mem_of_mem_drop hl)
  have hindent : k + 3 - 1 = k + 2 := rfl
  rw [blockLines?, if_neg (by simp [hread]), Leaf.blockPosition]
  dsimp only
  rw [hdrop, hindent, List.takeWhile_append_of_pos hin, List.length_append,
    List.length_drop]
  congr 2
  omega

end QueryBook.Document
