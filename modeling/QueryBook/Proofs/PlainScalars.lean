import QueryBook.Canonical
import QueryBook.Yaml.Scalar.Plain
import Mathlib.Data.List.Basic
import Mathlib.Data.List.TakeWhile

/-!
# Reading plain scalars

A text that is written plain is read back, whether a `:` or the end of the line follows it. The
reader goes from word to word, so the statement is one about the rest of a text from the start of a
word on.
-/

namespace QueryBook

namespace Canonical

/-! ## Plain texts -/

/-- What holds of a plain text from the start of each of its words on. -/
structure PlainFrom (cs : List Char) : Prop where
  nonempty : cs ≠ []
  head_ne_space : cs.head? ≠ some ' '
  head_ne_hash : cs.head? ≠ some '#'
  last_ne_space : cs.getLast? ≠ some ' '
  last_ne_colon : cs.getLast? ≠ some ':'
  noColonSpace : hasPair ':' ' ' cs = false
  noSpaceHash : hasPair ' ' '#' cs = false
  noControl : ∀ c ∈ cs, Text.isControl c = false

theorem hasPair_of_cons {a b c : Char} {cs : List Char} (h : hasPair a b (c :: cs) = false) :
    hasPair a b cs = false := by
  cases cs with
  | nil => rfl
  | cons d rest =>
    rw [hasPair, Bool.or_eq_false_iff] at h
    exact h.2

theorem hasPair_of_append {a b : Char} (cs : List Char) {ds : List Char} (h : hasPair a b (cs ++ ds) = false) :
    hasPair a b ds = false := by
  induction cs with
  | nil => exact h
  | cons c rest ih => exact ih (hasPair_of_cons h)

/-- The second character of a pair does not follow the first in a text without the pair. -/
theorem head?_ne_of_hasPair {a b : Char} {cs : List Char} (h : hasPair a b (a :: cs) = false) :
    cs.head? ≠ some b := by
  cases cs with
  | nil => simp
  | cons d rest =>
    rw [hasPair, Bool.or_eq_false_iff] at h
    intro hd
    rw [List.head?_cons, Option.some.injEq] at hd
    simp [hd] at h

/-- A plain text is one word, or a word, spaces and a plain text. -/
theorem PlainFrom.split {cs : List Char} (h : PlainFrom cs) :
    cs.takeWhile (· ≠ ' ') = cs ∨ ∃ k ds,
    cs = cs.takeWhile (· ≠ ' ') ++ (List.replicate (k + 1) ' ' ++ ds) ∧ PlainFrom ds := by
  have hword := List.takeWhile_append_dropWhile (p := fun c => decide (c ≠ ' ')) (l := cs)
  generalize cs.takeWhile (· ≠ ' ') = word at hword ⊢
  rcases hv : cs.dropWhile (· ≠ ' ') with - | ⟨d, tail⟩
  · rw [hv, List.append_nil] at hword
    exact .inl hword
  · right
    have hd : d = ' ' := by
      have := List.head?_dropWhile_not (fun c => decide (c ≠ ' ')) cs
      rw [hv] at this
      simpa using this
    have hspaces := List.takeWhile_append_dropWhile (p := fun c => decide (c = ' ')) (l := tail)
    have hrep : tail.takeWhile (· = ' ') = List.replicate (tail.takeWhile (· = ' ')).length ' ' := by
      refine List.eq_replicate_of_mem fun c hc => ?_
      simpa using List.mem_takeWhile_imp hc
    have hcs : cs = word ++ (List.replicate ((tail.takeWhile (· = ' ')).length + 1) ' ' ++
        tail.dropWhile (· = ' ')) := by
      rw [← hword, hv, hd, List.replicate_succ, List.cons_append, ← hrep, hspaces]
    refine ⟨_, _, hcs, ?_⟩
    generalize (tail.takeWhile (· = ' ')).length = k at hcs
    have hhead : (tail.dropWhile (· = ' ')).head? ≠ some ' ' := by
      intro he
      have := List.head?_dropWhile_not (fun c => decide (c = ' ')) tail
      rw [he] at this
      simp at this
    generalize tail.dropWhile (· = ' ') = ds at hcs hhead
    have hne : ds ≠ [] := by
      rintro rfl
      refine h.last_ne_space ?_
      rw [hcs, List.append_nil, List.replicate_succ', ← List.append_assoc, List.getLast?_concat]
    have hlast : cs.getLast? = ds.getLast? := by
      rw [hcs, ← List.append_assoc, List.getLast?_append_of_ne_nil _ hne]
    -- the space before the rest shows that it does not begin with a marker
    have hhash : hasPair ' ' '#' (' ' :: ds) = false := by
      refine hasPair_of_append (word ++ List.replicate k ' ') ?_
      have hk : word ++ List.replicate k ' ' ++ ' ' :: ds = cs := by
        rw [hcs, List.replicate_succ']
        simp
      rw [hk]
      exact h.noSpaceHash
    refine ⟨hne, hhead, head?_ne_of_hasPair hhash, hlast ▸ h.last_ne_space,
      hlast ▸ h.last_ne_colon, ?_, hasPair_of_cons hhash, fun c hc => h.noControl c ?_⟩
    · refine hasPair_of_append (word ++ List.replicate (k + 1) ' ') ?_
      rw [List.append_assoc, ← hcs]
      exact h.noColonSpace
    · rw [hcs]
      exact List.mem_append_right _ (List.mem_append_right _ hc)

/-- What is written plain is plain from its start on, does not begin with an indicator and is no
null. -/
theorem plainFrom_of_isPlainSafe {text : String} (h : isPlainSafe text = true) :
    PlainFrom text.toList ∧ (∀ c ∈ text.toList.head?, c ∉ indicators) ∧
      Node.isNullText text = false := by
  unfold isPlainSafe at h
  dsimp only at h
  split at h
  · next first rest last hcs hlast =>
    simp only [Bool.and_eq_true, Bool.not_eq_true', bne_iff_ne, ne_eq, List.any_eq_false] at h
    obtain ⟨⟨⟨⟨⟨⟨⟨hnull, hind⟩, hfirst⟩, hblank⟩, hcolon⟩, hpair⟩, hhash⟩, hcontrol⟩ := h
    have hmem : first ∉ indicators := by simpa using hind
    have hhead : text.toList.head? = some first := by rw [hcs, List.head?_cons]
    refine ⟨⟨by simp [hcs], ?_, ?_, ?_, ?_, hpair, hhash, ?_⟩, ?_, hnull⟩
    · rw [hhead, Ne, Option.some.injEq]
      rintro rfl
      exact absurd hfirst (by decide)
    · rw [hhead, Ne, Option.some.injEq]
      rintro rfl
      exact hmem (by decide)
    · rw [hlast, Ne, Option.some.injEq]
      rintro rfl
      exact absurd hblank (by decide)
    · rw [hlast, Ne, Option.some.injEq]
      exact hcolon
    · intro c hc
      simpa using hcontrol c hc
    · intro c hc
      rw [hhead, Option.mem_some_iff] at hc
      rw [← hc]
      exact hmem
  · cases h

end Canonical

namespace Yaml.Plain

open Canonical

variable {cs after : List Char} {indent : Int} {c : Cursor}

/-- What ends a plain scalar outside flow collections: a `:` before a blank or the end of the line,
or the end of the line. -/
def Stops : List Char → Prop
  | [] => True
  | c :: rest => (c = ':' ∧ endsWord rest.head? = true) ∨ c = '\n'

/-- A character that is no control is neither a tab nor a line break. -/
theorem isWhite_of_not_isControl {c : Char} (h : Text.isControl c = false) :
    isWhite c = decide (c = ' ') ∧ isBreak c = false := by
  have ht : c ≠ '\t' := by
    rintro rfl
    exact absurd h (by decide)
  have hn : c ≠ '\n' := by
    rintro rfl
    exact absurd h (by decide)
  have hr : c ≠ '\r' := by
    rintro rfl
    exact absurd h (by decide)
  simp [isWhite, isBreak, ht, hn, hr]

/-- The word at the start of a plain text ends at its first space, or with the text. -/
theorem word_append (hcontrol : ∀ c ∈ cs, Text.isControl c = false)
    (hpair : hasPair ':' ' ' cs = false) (hlast : cs.getLast? ≠ some ':') (hstop : Stops after) :
    word false (cs ++ after) = cs.takeWhile (· ≠ ' ') := by
  induction cs with
  | nil =>
    cases after with
    | nil => rfl
    | cons c rest =>
      have hc : continues false c rest = false := by
        rcases hstop with ⟨rfl, hr⟩ | rfl
        · simp [continues, isWhite, isBreak, hr]
        · simp [continues, isWhite, isBreak]
      rw [List.nil_append, word, hc]
      rfl
  | cons c rest ih =>
    obtain ⟨hw, hb⟩ := isWhite_of_not_isControl (hcontrol c List.mem_cons_self)
    rw [List.cons_append, word]
    by_cases hs : c = ' '
    · have hc : continues false c (rest ++ after) = false := by simp [continues, hs, isWhite]
      rw [hc, List.takeWhile_cons_of_neg (by simp [hs])]
      rfl
    · have hc : continues false c (rest ++ after) = true := by
        by_cases hcolon : c = ':'
        · -- A `:` is inside a word if neither a space nor the end follows it.
          rw [hcolon] at hpair hlast ⊢
          cases rest with
          | nil => exact absurd rfl hlast
          | cons d tail =>
            have hd : d ≠ ' ' := fun h => head?_ne_of_hasPair hpair (by rw [h]; rfl)
            obtain ⟨hw', hb'⟩ := isWhite_of_not_isControl (hcontrol d (by simp))
            have colon : isWhite ':' = false ∧ isBreak ':' = false := by decide
            simp [continues, endsWord, hw', hb', hd, colon]
        · simp [continues, hw, hb, hs, hcolon]
      have hl : rest.getLast? ≠ some ':' := by
        cases rest with
        | nil => simp
        | cons d tail =>
          rw [List.getLast?_cons_cons] at hlast
          exact hlast
      rw [hc, if_pos rfl, List.takeWhile_cons_of_pos (by simpa using hs),
        ih (fun d hd => hcontrol d (List.mem_cons_of_mem _ hd)) (hasPair_of_cons hpair) hl]

/-- Spaces before more text are passed and kept. -/
theorem skipGap_spaces {gap : Gap} {k : Nat} (hbroken : gap.broken = false)
    (hrest : c.rest = List.replicate k ' ' ++ after) (hne : after ≠ [])
    (hw : ∀ d ∈ after.head?, isWhite d = false ∧ isBreak d = false) :
    skipGap indent gap c =
      some ({ gap with blanks := List.replicate k ' ' ++ gap.blanks }, c.move k false) := by
  induction k generalizing c gap with
  | zero =>
    obtain ⟨d, tail, rfl⟩ := List.exists_cons_of_ne_nil hne
    obtain ⟨hwd, hbd⟩ := hw d rfl
    rw [skipGap]
    split
    · next hc => simp [hrest] at hc
    · next ch rest hc =>
      have hd : ch = d := by
        rw [hrest] at hc
        cases hc
        rfl
      rw [hd, hwd, hbd]
      simp [Cursor.move]
  | succ k ih =>
    rw [skipGap]
    split
    · next hc => simp [hrest, List.replicate_succ] at hc
    · next ch rest hc =>
      rw [hrest, List.replicate_succ, List.cons_append, List.cons.injEq] at hc
      rw [← hc.1, if_pos (by decide), hbroken]
      rw [Bool.false_and, Bool.false_and, if_neg (by decide), ih]
      · simp [Gap.white, hbroken, Cursor.skipWhite, Cursor.move, List.replicate_succ',
          Nat.add_comm, Nat.add_left_comm]
      · simp [Gap.white, hbroken]
      · rw [Cursor.rest_skipWhite, hrest, List.replicate_succ]
        rfl

/-- The first word of a plain text is what stands before its first space, and it is not empty. -/
theorem word_plain (hcs : PlainFrom cs) (hstop : Stops after) :
    word false (cs ++ after) = cs.takeWhile (· ≠ ' ') ∧
      (cs.takeWhile (· ≠ ' ')).isEmpty = false := by
  refine ⟨word_append hcs.noControl hcs.noColonSpace hcs.last_ne_colon hstop, ?_⟩
  obtain ⟨x, tail, rfl⟩ := List.exists_cons_of_ne_nil hcs.nonempty
  have hx : x ≠ ' ' := fun h => hcs.head_ne_space (by rw [h]; rfl)
  rw [List.takeWhile_cons_of_pos (by simpa using hx)]
  rfl

/-- Spaces between two words of a plain text are the gap between them. -/
theorem skipGap_plain {ds : List Char} {k : Nat} (hds : PlainFrom ds)
    (hrest : c.rest = List.replicate (k + 1) ' ' ++ (ds ++ after)) :
    skipGap indent {} c =
      some ({ blanks := List.replicate (k + 1) ' ' }, c.move (k + 1) false) := by
  rw [skipGap_spaces rfl hrest (by simp [hds.nonempty]), List.append_nil]
  intro d hd
  rw [List.head?_append_of_ne_nil _ hds.nonempty] at hd
  obtain ⟨hw, hb⟩ := isWhite_of_not_isControl (hds.noControl d (List.mem_of_head? hd))
  refine ⟨?_, hb⟩
  rw [hw, decide_eq_false_iff_not]
  rintro rfl
  exact hds.head_ne_space hd

theorem skip_move_skip (k n m : Nat) :
    (((c.skip k).move n false).skip m) = c.skip (k + n + m) := by
  simp [Cursor.skip, Cursor.move, List.drop_drop, Nat.add_comm, Nat.add_left_comm]

theorem words_append (gap : Gap) {gap' : Gap} {c' : Cursor} (hcs : PlainFrom cs) (hstop : Stops after)
    (hrest : c.rest = cs ++ after) (hcolumn : indent ≤ c.column + 1)
    (hdocument : c.atDocumentIndicator = false)
    (hend : skipGap indent {} (c.skip cs.length) = some (gap', c'))
    (hlast : gap' = {} ∨ (c'.column : Int) < indent) :
    words false indent gap c = some (gap.text ++ cs, gap', c') := by
  -- The induction is on the length of the text; each step takes a word and the spaces behind it.
  induction hn : cs.length using Nat.strongRecOn generalizing cs c gap with
  | ind n ih =>
    have hnext : c.next? = cs.head? := by
      rw [Cursor.next?, hrest, List.head?_append_of_ne_nil _ hcs.nonempty]
    have hends : endsAt c = false := by
      simp [endsAt, hdocument, hnext, hcs.head_ne_hash]
    obtain ⟨hword, hne⟩ := word_plain hcs hstop
    rw [words, hends, hrest, hword, if_neg (by decide), if_neg (by simp)]
    dsimp only
    rw [hne, if_neg (by decide)]
    rcases hcs.split with hall | ⟨k, ds, heq, hds⟩
    · -- the last word, with the reader's end behind it
      rw [hall, hend]
      dsimp only
      rw [if_pos]
      simpa using hlast
    · generalize cs.takeWhile (· ≠ ' ') = word at heq
      have hspaces : (c.skip word.length).rest =
          List.replicate (k + 1) ' ' ++ (ds ++ after) := by
        rw [Cursor.rest_skip, hrest, heq]
        simp
      have hrest' : ((c.skip word.length).move (k + 1) false).rest = ds ++ after := by
        simp [hrest, heq]
      have hcolumn' : ((c.skip word.length).move (k + 1) false).column =
          c.column + word.length + (k + 1) := rfl
      have hlength : cs.length = word.length + (k + 1 + ds.length) := by
        rw [heq]
        simp
      -- the spaces are the gap in front of the next word
      have hmore := ih ds.length (by omega) { blanks := List.replicate (k + 1) ' ' } hds
        hrest' (by omega) (by simp [Cursor.atDocumentIndicator, hcolumn'])
        (by rw [skip_move_skip, Nat.add_assoc, ← hlength]; exact hend) rfl
      rw [skipGap_plain hds hspaces]
      dsimp only
      rw [if_neg, if_pos, hmore]
      · simp [Gap.text, heq]
      · rw [hrest', List.length_append, List.length_append]
        omega
      · rw [Bool.or_eq_true, decide_eq_true_eq, not_or]
        refine ⟨by simp [List.replicate_succ], ?_⟩
        rw [Bool.and_eq_true, decide_eq_true_eq, not_and]
        omega

/-- At a `:` there is no gap. -/
theorem skipGap_colon {rest : List Char} (h : c.rest = ':' :: rest) :
    skipGap indent {} c = some ({}, c) := by
  rw [skipGap]
  split
  · next hc => simp [h] at hc
  · next ch tail hc =>
    rw [h] at hc
    cases hc
    rfl

/-- A plain text before the `:` of a key is read, up to the `:`. -/
theorem read_key {rest : List Char} (hcs : PlainFrom cs) (hstop : endsWord rest.head? = true)
    (hrest : c.rest = cs ++ ':' :: rest) (hcolumn : indent ≤ c.column + 1)
    (hdocument : c.atDocumentIndicator = false) :
    read false indent c = some (cs, false, c.skip cs.length) := by
  have hend : skipGap indent {} (c.skip cs.length) = some ({}, c.skip cs.length) := by
    have hcolon : (c.skip cs.length).rest = ':' :: rest := by
      rw [Cursor.rest_skip, hrest, List.drop_left]
    exact skipGap_colon hcolon
  have hstops : Stops (':' :: rest) := Or.inl ⟨rfl, hstop⟩
  have hwords := words_append {} hcs hstops hrest hcolumn hdocument hend (.inl rfl)
  rw [read, if_neg (by simp), hwords]
  rfl

/-- A plain text before the end of its line is read, up to the text that follows less indented. -/
theorem read_value {rest : List Char} {gap : Gap} {c' : Cursor} (hcs : PlainFrom cs)
    (hrest : c.rest = cs ++ '\n' :: rest) (hcolumn : indent ≤ c.column + 1)
    (hdocument : c.atDocumentIndicator = false)
    (hend : skipGap indent {} (c.skip cs.length) = some (gap, c'))
    (hlast : (c'.column : Int) < indent) :
    read false indent c = some (cs, gap.broken, c') := by
  have hstops : Stops ('\n' :: rest) := Or.inr rfl
  have hwords := words_append {} hcs hstops hrest hcolumn hdocument hend (.inr hlast)
  rw [read, if_neg (by simp), hwords]
  rfl

end Yaml.Plain

end QueryBook
