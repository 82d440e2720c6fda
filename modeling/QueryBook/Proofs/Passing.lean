import Mathlib.Data.List.TakeWhile
import QueryBook.Yaml.Token.Scan

/-!
# What readers move over

Every reader moves the cursor forward, over text and line breaks. Most of them pass only words,
blanks and comments: where a `#` follows a blank, the rest of the line is passed at once. Only
quoted scalars and the lines of blocks are crossed without regard to what is in them.
-/

namespace QueryBook.Yaml

/-- The mark behind text of the same line. -/
def Mark.forward (m : Mark) (n : Nat) : Mark :=
  { m with index := m.index + n, column := m.column + n }

/-- A blank does not end a line. -/
theorem isBreak_eq_false_of_isWhite {ch : Char} (h : isWhite ch = true) : isBreak ch = false := by
  rw [isWhite, Bool.or_eq_true, decide_eq_true_eq, decide_eq_true_eq] at h
  rcases h with rfl | rfl <;> rfl

namespace Cursor

variable {c c' c'' d : Cursor} {w w' rest : List Char} {ch : Char}

/-! ## Text of a line -/

/-- A cursor is behind a text that the rest at another starts with, on the same line. -/
structure Takes (c : Cursor) (w : List Char) (c' : Cursor) : Prop where
  rest : c.rest = w ++ c'.rest
  mark : c'.mark = c.mark.forward w.length
  line : ∀ ch ∈ w, isBreak ch = false

theorem Takes.refl (c : Cursor) : c.Takes [] c := ⟨rfl, rfl, nofun⟩

theorem Takes.trans (h : c.Takes w c') (h' : c'.Takes w' c'') : c.Takes (w ++ w') c'' where
  rest := by rw [h.rest, h'.rest, List.append_assoc]
  mark := by
    rw [h'.mark, h.mark, List.length_append]
    simp only [Mark.forward, Nat.add_assoc]
  line := by
    intro ch hch
    rcases List.mem_append.mp hch with hch | hch
    · exact h.line ch hch
    · exact h'.line ch hch

/-- Moving over text takes it. -/
theorem takes_move {n : Nat} (text : Bool) (hn : n ≤ c.rest.length)
    (h : ∀ ch ∈ c.rest.take n, isBreak ch = false) : c.Takes (c.rest.take n) (c.move n text) where
  rest := (List.take_append_drop n c.rest).symm
  mark := by rw [List.length_take_of_le hn]; rfl
  line := h

theorem takes_cons (text : Bool) (h : c.rest = ch :: rest) (hbreak : isBreak ch = false) :
    c.Takes [ch] (c.move 1 text) where
  rest := by rw [rest_move, h]; rfl
  mark := rfl
  line := by simpa using hbreak

/-- Moving over a class of characters takes them. -/
theorem takes_skip_takeWhile {p : Char → Bool} (hp : ∀ ch, p ch = true → isBreak ch = false) :
    c.Takes (c.rest.takeWhile p) (c.skip (c.rest.takeWhile p).length) := by
  have htake : c.rest.take (c.rest.takeWhile p).length = c.rest.takeWhile p :=
    List.prefix_iff_eq_take.mp (List.takeWhile_prefix p) |>.symm
  have h := takes_move (c := c) true (List.takeWhile_prefix p).length_le fun ch hch => by
    rw [htake] at hch
    exact hp ch (List.mem_takeWhile_imp hch)
  rwa [htake] at h

/-- Moving to the end of the line takes what is left of it. -/
theorem takes_skipLine (c : Cursor) :
    c.Takes (c.rest.takeWhile fun ch => !isBreak ch) c.skipLine := by
  have h := takes_skip_takeWhile (c := c) (p := fun ch => !isBreak ch) fun ch hch => by
    simpa using hch
  unfold skipLine skipWhile
  dsimp only
  split
  · next hzero =>
    rw [List.length_eq_zero_iff] at hzero
    rw [hzero]
    exact .refl c
  · exact h

/-- Behind the rest of a line comes its end. -/
theorem Takes.endsLine (h : c.Takes (c.rest.takeWhile fun ch => !isBreak ch) d) :
    endsLine d.next? = true := by
  have hsplit := List.takeWhile_append_dropWhile (p := fun ch => !isBreak ch) (l := c.rest)
  rw [next?, List.append_cancel_left (h.rest.symm.trans hsplit.symm)]
  cases hd : c.rest.dropWhile fun ch => !isBreak ch with
  | nil => rfl
  | cons ch rest =>
    have hne : c.rest.dropWhile (fun ch => !isBreak ch) ≠ [] := by simp [hd]
    have hhead := List.head_dropWhile_not (fun ch => !isBreak ch) hne
    simpa [hd, Yaml.endsLine] using hhead

/-- Moving to the end of the line leads there. -/
theorem endsLine_skipLine (c : Cursor) : endsLine c.skipLine.next? = true :=
  (takes_skipLine c).endsLine

/-! ## Crossing -/

/-- One cursor is behind another, over text and line breaks. -/
inductive Crosses : Cursor → Cursor → Prop
  | done {c c' : Cursor} (rest : c'.rest = c.rest) (mark : c'.mark = c.mark) : Crosses c c'
  | text {c d c' : Cursor} {w : List Char} (taken : c.Takes w d) (next : Crosses d c') :
      Crosses c c'
  | lineBreak {c d c' : Cursor} {ch : Char} {rest : List Char} (start : c.rest = ch :: rest)
    (ends : isBreak ch = true) (rest : d.rest = c.skipBreak.rest) (mark : d.mark = c.skipBreak.mark)
    (next : Crosses d c') : Crosses c c'

theorem Crosses.refl (c : Cursor) : c.Crosses c := .done rfl rfl

/-- What is crossed depends only on the rest and its place. -/
theorem Crosses.congr (h : c.Crosses c') (hrest : d.rest = c.rest) (hmark : d.mark = c.mark) :
    d.Crosses c' := by
  cases h with
  | done rest mark => exact .done (rest.trans hrest.symm) (mark.trans hmark.symm)
  | text taken next =>
    exact .text ⟨hrest.trans taken.rest, by rw [hmark]; exact taken.mark, taken.line⟩ next
  | lineBreak start ends rest mark next =>
    refine .lineBreak (hrest.trans start) ends ?_ ?_ next
    · rw [rest, skipBreak, skipBreak, hrest]
    · rw [mark, skipBreak, skipBreak, hrest, hmark]

theorem Crosses.trans (h : c.Crosses c') (h' : c'.Crosses c'') : c.Crosses c'' := by
  induction h with
  | done rest mark => exact h'.congr rest.symm mark.symm
  | text taken _ ih => exact .text taken (ih h')
  | lineBreak start ends rest mark _ ih => exact .lineBreak start ends rest mark (ih h')

/-- Text is crossed. -/
theorem Takes.crosses (h : c.Takes w c') : c.Crosses c' := .text h (.refl c')

/-- What is left of the source behind a part of it is a suffix of what was there before. -/
theorem Crosses.suffix (h : c.Crosses c') : c'.rest <:+ c.rest := by
  induction h with
  | done rest _ => exact rest ▸ List.suffix_rfl
  | text taken _ ih => exact ih.trans (taken.rest ▸ List.suffix_append _ _)
  | lineBreak _ _ rest _ _ ih => exact ih.trans (rest ▸ List.drop_suffix _ _)

/-- Crossing leads to a later line, or forward on the same. -/
theorem Crosses.forward (h : c.Crosses c') :
    c.line < c'.line ∨ c.line = c'.line ∧ c.column ≤ c'.column := by
  induction h with
  | @done c c' _ mark =>
    right
    rw [line, line, column, column, mark]
    exact ⟨rfl, Nat.le_refl _⟩
  | @text c d c' w taken _ ih =>
    have hline : d.line = c.line := by rw [line, taken.mark]; rfl
    have hcolumn : d.column = c.column + w.length := by rw [column, taken.mark]; rfl
    omega
  | @lineBreak c d c' ch rest _ _ _ mark _ ih =>
    have hline : d.line = c.line + 1 := by rw [line, mark]; rfl
    omega

/-! ## Passing -/

/-- One cursor is behind another, over words, blanks, line breaks and rests of lines. No word begins
with a marker, so where a marker follows a blank, the rest of the line is passed. -/
inductive Passes : Cursor → Cursor → Prop
  | done {c c' : Cursor} (rest : c'.rest = c.rest) (mark : c'.mark = c.mark) : Passes c c'
  | word {c d c' : Cursor} {w : List Char} (taken : c.Takes w d)
    (nonwhite : ∀ ch ∈ w, isWhite ch = false) (first : w.head? ≠ some '#') (next : Passes d c') :
      Passes c c'
  | white {c d c' : Cursor} {ch : Char} (taken : c.Takes [ch] d) (white : isWhite ch = true)
    (next : Passes d c') : Passes c c'
  | line {c d c' : Cursor} {w : List Char} (taken : c.Takes w d) (ends : endsLine d.next? = true)
    (next : Passes d c') : Passes c c'
  | lineBreak {c d c' : Cursor} {ch : Char} {rest : List Char} (start : c.rest = ch :: rest)
    (ends : isBreak ch = true) (rest : d.rest = c.skipBreak.rest) (mark : d.mark = c.skipBreak.mark)
    (next : Passes d c') : Passes c c'

theorem Passes.refl (c : Cursor) : c.Passes c := .done rfl rfl

/-- What is passed depends only on the rest and its place. -/
theorem Passes.congr (h : c.Passes c') (hrest : d.rest = c.rest) (hmark : d.mark = c.mark) :
    d.Passes c' := by
  have htaken {w : List Char} {e : Cursor} (taken : c.Takes w e) : d.Takes w e :=
    ⟨hrest.trans taken.rest, by rw [hmark]; exact taken.mark, taken.line⟩
  cases h with
  | done rest mark => exact .done (rest.trans hrest.symm) (mark.trans hmark.symm)
  | word taken nonwhite first next => exact .word (htaken taken) nonwhite first next
  | white taken white next => exact .white (htaken taken) white next
  | line taken ends next => exact .line (htaken taken) ends next
  | lineBreak start ends rest mark next =>
    refine .lineBreak (hrest.trans start) ends ?_ ?_ next
    · rw [rest, skipBreak, skipBreak, hrest]
    · rw [mark, skipBreak, skipBreak, hrest, hmark]

theorem Passes.trans (h : c.Passes c') (h' : c'.Passes c'') : c.Passes c'' := by
  induction h with
  | done rest mark => exact h'.congr rest.symm mark.symm
  | word taken nonwhite first _ ih => exact .word taken nonwhite first (ih h')
  | white taken white _ ih => exact .white taken white (ih h')
  | line taken ends _ ih => exact .line taken ends (ih h')
  | lineBreak start ends rest mark _ ih => exact .lineBreak start ends rest mark (ih h')

/-- What is passed is crossed. -/
theorem Passes.crosses (h : c.Passes c') : c.Crosses c' := by
  induction h with
  | done rest mark => exact .done rest mark
  | word taken _ _ _ ih => exact .text taken ih
  | white taken _ _ ih => exact .text taken ih
  | line taken _ _ ih => exact .text taken ih
  | lineBreak start ends rest mark _ ih => exact .lineBreak start ends rest mark ih

/-- A word is passed. -/
theorem Takes.passes (h : c.Takes w c') (nonwhite : ∀ ch ∈ w, isWhite ch = false)
    (first : w.head? ≠ some '#') : c.Passes c' :=
  .word h nonwhite first (.refl c')

/-- A character is passed that is neither a blank nor a marker. -/
theorem passes_skip_one (h : c.rest = ch :: rest) (hwhite : isWhite ch = false)
    (hbreak : isBreak ch = false) (hmarker : ch ≠ '#') : c.Passes (c.skip 1) :=
  (takes_cons true h hbreak).passes (by simpa using hwhite) (by simpa using hmarker)

/-- A blank is passed. -/
theorem passes_skipWhite (h : c.rest = ch :: rest) (hwhite : isWhite ch = true) :
    c.Passes c.skipWhite :=
  .white (takes_cons false h (isBreak_eq_false_of_isWhite hwhite)) hwhite (.refl _)

/-- A line break is passed. -/
theorem passes_skipBreak (h : c.rest = ch :: rest) (hbreak : isBreak ch = true) :
    c.Passes c.skipBreak :=
  .lineBreak h hbreak rfl rfl (.refl _)

/-- The rest of a line is passed. -/
theorem passes_skipLine (c : Cursor) : c.Passes c.skipLine :=
  .line (takes_skipLine c) (endsLine_skipLine c) (.refl _)

/-- Blanks and a comment are passed. -/
theorem passes_skipBlanks {tabs : Bool} {seen seen' : Blanks}
    (h : skipBlanks tabs seen c = some (seen', c')) : c.Passes c' := by
  fun_induction skipBlanks tabs seen c with
  | case1 seen c tail hc ih => exact (passes_skipWhite hc rfl).trans (ih h)
  | case2 seen c tail hc ht ih => exact (passes_skipWhite hc rfl).trans (ih h)
  | case4 seen c tail hc hs =>
    cases h
    exact passes_skipLine c
  | case5 => cases h
  | case3 | case6 =>
    cases h
    exact .refl _

/-- Blanks and a comment are text of the line. -/
theorem takes_skipBlanks {tabs : Bool} {seen seen' : Blanks}
    (h : skipBlanks tabs seen c = some (seen', c')) : ∃ w, c.Takes w c' := by
  fun_induction skipBlanks tabs seen c with
  | case1 seen c tail hc ih =>
    obtain ⟨w, hw⟩ := ih h
    exact ⟨_, (takes_cons false hc rfl).trans hw⟩
  | case2 seen c tail hc ht ih =>
    obtain ⟨w, hw⟩ := ih h
    exact ⟨_, (takes_cons false hc rfl).trans hw⟩
  | case4 seen c tail hc hs =>
    cases h
    exact ⟨_, takes_skipLine c⟩
  | case5 => cases h
  | case3 | case6 =>
    cases h
    exact ⟨_, .refl _⟩

/-- No marker follows the blanks that are passed. -/
theorem next?_skipBlanks {tabs : Bool} {seen seen' : Blanks}
    (h : skipBlanks tabs seen c = some (seen', c')) : c'.next? ≠ some '#' := by
  fun_induction skipBlanks tabs seen c with
  | case1 seen c tail hc ih => exact ih h
  | case2 seen c tail hc ht ih => exact ih h
  | case3 seen c tail hc ht =>
    cases h
    rw [next?, hc]
    exact ne_of_beq_false rfl
  | case4 seen c tail hc hs =>
    cases h
    intro hnext
    have hends := endsLine_skipLine c
    rw [hnext] at hends
    cases hends
  | case5 => cases h
  | case6 seen c hspace htab hmarker =>
    cases h
    intro hnext
    obtain ⟨rest, hrest⟩ := List.head?_eq_some_iff.mp hnext
    exact hmarker rest hrest

/-- Blanks and a comment are passed up to the end of the line. -/
theorem skipToLineEnd_eq_some (h : c.skipToLineEnd = some c') :
    ∃ seen, skipBlanks true {} c = some (seen, c') ∧ endsLine c'.next? = true := by
  unfold skipToLineEnd at h
  split at h
  · next seen c'' hblanks =>
    split at h
    · next hends =>
      cases h
      exact ⟨seen, hblanks, hends⟩
    · cases h
  · cases h

end Cursor

open Cursor

/-! ## Tags and directives -/

namespace Tag

variable {c c' : Cursor} {kind : TokenKind}

/-- Whether a character is neither a blank nor a line break. -/
def isSolid (ch : Char) : Bool := !isWhite ch && !isBreak ch

/-- What is no blank and no line break is solid. -/
theorem isSolid_eq_true {ch : Char} :
    isSolid ch = true ↔ isWhite ch = false ∧ isBreak ch = false := by
  simp [isSolid]

/-- A class without blanks and line breaks is solid. -/
theorem isSolid_of_class (p : Char → Bool)
    (hp : p ' ' = false ∧ p '\t' = false ∧ p '\n' = false ∧ p '\r' = false) {ch : Char}
    (h : p ch = true) : isSolid ch = true := by
  obtain ⟨hspace, htab, hfeed, hreturn⟩ := hp
  have hne (x : Char) (hx : p x = false) : ch ≠ x := by
    rintro rfl
    rw [hx] at h
    cases h
  simp [isSolid, isWhite, isBreak, hne _ hspace, hne _ htab, hne _ hfeed, hne _ hreturn]

/-- A solid text is taken. -/
def TakesSolid (c c' : Cursor) : Prop := ∃ w, c.Takes w c' ∧ ∀ ch ∈ w, isWhite ch = false

theorem TakesSolid.refl (c : Cursor) : TakesSolid c c := ⟨[], .refl c, nofun⟩

theorem TakesSolid.trans {c'' : Cursor} (h : TakesSolid c c') (h' : TakesSolid c' c'') :
    TakesSolid c c'' := by
  obtain ⟨w, hw, hwhite⟩ := h
  obtain ⟨w', hw', hwhite'⟩ := h'
  refine ⟨w ++ w', hw.trans hw', fun ch hch => ?_⟩
  rcases List.mem_append.mp hch with hch | hch
  · exact hwhite ch hch
  · exact hwhite' ch hch

/-- Moving over solid text takes it. -/
theorem takesSolid_skip {n : Nat} (hn : n ≤ c.rest.length)
    (h : ∀ ch ∈ c.rest.take n, isSolid ch = true) : TakesSolid c (c.skip n) :=
  ⟨_, takes_move true hn fun ch hch => (isSolid_eq_true.mp (h ch hch)).2,
    fun ch hch => (isSolid_eq_true.mp (h ch hch)).1⟩

/-- Moving over a solid character takes it. -/
theorem takesSolid_skip_one {ch : Char} (h : c.next? = some ch) (hch : isSolid ch = true) :
    TakesSolid c (c.skip 1) := by
  obtain ⟨rest, hrest⟩ := List.head?_eq_some_iff.mp h
  refine takesSolid_skip (by rw [hrest]; exact Nat.succ_pos _) ?_
  rw [hrest]
  simpa using hch

/-- Digits of an escape are solid, and so is its percent sign. -/
theorem octet?_eq_some {text : List Char} {n : Nat} (h : octet? text = some n) :
    3 ≤ text.length ∧ ∀ ch ∈ text.take 3, isSolid ch = true := by
  have hdigit {ch : Char} {v : Nat} (h : hexValue? ch = some v) : isSolid ch = true := by
    have hclass : (hexValue? ' ').isSome = false ∧ (hexValue? '\t').isSome = false ∧
        (hexValue? '\n').isSome = false ∧ (hexValue? '\r').isSome = false := by
      decide
    have hsome : (hexValue? ch).isSome = true := by
      rw [h]
      rfl
    exact isSolid_of_class (fun ch => (hexValue? ch).isSome) hclass hsome
  unfold octet? at h
  split at h
  · next high low rest =>
    simp only [hexNumber?, Option.bind_eq_some_iff] at h
    obtain ⟨x, hx, y, hy, -⟩ := h
    refine ⟨by simp, ?_⟩
    intro ch hch
    simp only [List.take_succ_cons, List.take_zero, List.mem_cons, List.not_mem_nil,
      or_false] at hch
    rcases hch with rfl | rfl | rfl
    · rfl
    · exact hdigit hx
    · exact hdigit hy
  · cases h

/-- The octets after the first are escapes. -/
theorem laterOctets?_eq_some {n code code' : Nat} {text : List Char}
    (h : laterOctets? code n text = some code') :
    3 * n ≤ text.length ∧ ∀ ch ∈ text.take (3 * n), isSolid ch = true := by
  induction n generalizing code text with
  | zero => exact ⟨Nat.zero_le _, nofun⟩
  | succ n ih =>
    unfold laterOctets? at h
    obtain ⟨octet, hoctet, h⟩ := Option.bind_eq_some_iff.mp h
    split at h
    · obtain ⟨hlength, hsolid⟩ := ih h
      obtain ⟨hlength', hsolid'⟩ := octet?_eq_some hoctet
      rw [List.length_drop] at hlength
      refine ⟨by omega, fun ch hch => ?_⟩
      rw [show 3 * (n + 1) = 3 + 3 * n by omega, List.take_add] at hch
      rcases List.mem_append.mp hch with hch | hch
      · exact hsolid' ch hch
      · exact hsolid ch hch
    · cases h

/-- An escaped character is solid. -/
theorem escapeLength?_eq_some {text : List Char} {length : Nat}
    (h : escapeLength? text = some length) :
    length ≤ text.length ∧ ∀ ch ∈ text.take length, isSolid ch = true := by
  unfold escapeLength? at h
  obtain ⟨first, hfirst, h⟩ := Option.bind_eq_some_iff.mp h
  obtain ⟨count, hcount, h⟩ := Option.bind_eq_some_iff.mp h
  obtain ⟨code, hcode, h⟩ := Option.bind_eq_some_iff.mp h
  obtain ⟨hlength, hsolid⟩ := octet?_eq_some hfirst
  obtain ⟨hlength', hsolid'⟩ := laterOctets?_eq_some hcode
  have hpos : 0 < count := by
    unfold octetCount? at hcount
    split_ifs at hcount <;> cases hcount <;> decide
  split at h
  · cases h
    rw [List.length_drop] at hlength'
    rw [show 3 * count = 3 + 3 * (count - 1) by omega]
    refine ⟨by omega, fun ch hch => ?_⟩
    rw [List.take_add] at hch
    rcases List.mem_append.mp hch with hch | hch
    · exact hsolid ch hch
    · exact hsolid' ch hch
  · cases h

/-- A URI is solid. -/
theorem takesSolid_skipUri {p : Char → Bool} (hp : ∀ ch, p ch = true → isSolid ch = true)
    {count count' : Nat} (h : skipUri p count c = some (count', c')) : TakesSolid c c' := by
  fun_induction skipUri p count c with
  | case1 | case2 =>
    cases h
    exact .refl _
  | case3 => cases h
  | case4 count c ch tail hc hsolid length? length hlength hlt ih =>
    refine TakesSolid.trans ?_ (ih h)
    dsimp only [length?] at hlength
    split at hlength
    · obtain ⟨hle, hescape⟩ := escapeLength?_eq_some hlength
      exact takesSolid_skip hle hescape
    · cases hlength
      refine takesSolid_skip_one (by rw [next?, hc]; rfl) (hp ch ?_)
      simpa using hsolid
  | case5 => cases h

/-- Characters of names are solid. -/
theorem isSolid_of_isNameChar {ch : Char} (h : isNameChar ch = true) : isSolid ch = true :=
  isSolid_of_class isNameChar (by decide) h

/-- Characters of URIs are solid. -/
theorem isSolid_of_isUriChar {ch : Char} (h : isUriChar ch = true) : isSolid ch = true :=
  isSolid_of_class isUriChar (by decide) h

/-- Characters of tags are solid. -/
theorem isSolid_of_isTagChar {ch : Char} (h : isTagChar ch = true) : isSolid ch = true :=
  isSolid_of_class isTagChar (by decide) h

/-- A handle is solid. -/
theorem takesSolid_readHandle {handle : List Char} (h : readHandle c = some (handle, c')) :
    TakesSolid c c' := by
  unfold readHandle at h
  split at h
  · next rest hrest =>
    have hname : TakesSolid c (c.skip ((rest.takeWhile isNameChar).length + 1)) := by
      refine takesSolid_skip ?_ ?_
      · rw [hrest, List.length_cons]
        exact Nat.succ_le_succ (List.takeWhile_prefix _).length_le
      · rw [hrest, List.take_succ_cons]
        have htake := List.prefix_iff_eq_take.mp (List.takeWhile_prefix isNameChar (l := rest))
        rw [← htake]
        refine List.forall_mem_cons.mpr ⟨rfl, fun ch hch => ?_⟩
        exact isSolid_of_isNameChar (List.mem_takeWhile_imp hch)
    dsimp only at h
    split at h
    · next hmark =>
      cases h
      exact hname.trans (takesSolid_skip_one hmark rfl)
    · cases h
      exact hname
  · cases h

/-- A tag is solid. -/
theorem takesSolid_readBody {handle : String} (hstart : c.next? = some '!')
    (h : readBody c = some (handle, c')) : TakesSolid c c' := by
  obtain ⟨rest, hrest⟩ := List.head?_eq_some_iff.mp hstart
  unfold readBody at h
  split at h
  · next hopen =>
    obtain ⟨⟨count, c''⟩, huri, h⟩ := Option.bind_eq_some_iff.mp h
    have hskip : TakesSolid c (c.skip 2) := by
      rw [hrest, List.getElem?_cons_succ, ← List.head?_eq_getElem?] at hopen
      obtain ⟨rest', rfl⟩ := List.head?_eq_some_iff.mp hopen
      refine takesSolid_skip (by rw [hrest]; simp) ?_
      rw [hrest]
      exact List.forall_mem_cons.mpr ⟨rfl, List.forall_mem_singleton.mpr rfl⟩
    dsimp only at h
    split at h
    · next hclose =>
      cases h
      exact (hskip.trans (takesSolid_skipUri (fun _ => isSolid_of_isUriChar) huri)).trans
        (takesSolid_skip_one hclose rfl)
    · cases h
  · obtain ⟨⟨handle', c''⟩, hhandle, h⟩ := Option.bind_eq_some_iff.mp h
    dsimp only at h
    split at h
    · obtain ⟨⟨count, c'''⟩, huri, h⟩ := Option.bind_eq_some_iff.mp h
      dsimp only at h
      split at h
      · cases h
      · cases h
        exact (takesSolid_readHandle hhandle).trans
          (takesSolid_skipUri (fun _ => isSolid_of_isTagChar) huri)
    · obtain ⟨⟨count, c'''⟩, huri, h⟩ := Option.bind_eq_some_iff.mp h
      cases h
      exact (takesSolid_readHandle hhandle).trans
        (takesSolid_skipUri (fun _ => isSolid_of_isTagChar) huri)

/-- A tag is passed. -/
theorem passes_read {inFlow : Bool} {handle : String} (hstart : c.next? = some '!')
    (h : read inFlow c = some (handle, c')) : c.Passes c' := by
  unfold read at h
  obtain ⟨⟨handle', c''⟩, hread, h⟩ := Option.bind_eq_some_iff.mp h
  dsimp only at h
  split at h
  · cases h
    obtain ⟨w, htaken, hwhite⟩ := takesSolid_readBody hstart hread
    cases w with
    | nil => exact htaken.passes hwhite nofun
    | cons ch w =>
      refine htaken.passes hwhite ?_
      have hhead := htaken.rest
      obtain ⟨rest, hrest⟩ := List.head?_eq_some_iff.mp hstart
      rw [hrest, List.cons_append, List.cons.injEq] at hhead
      rw [List.head?_cons, ← hhead.1]
      decide
  · cases h

/-- Blanks in a directive are text of the line. -/
theorem takes_skipWhites (c : Cursor) : ∃ w, c.Takes w (skipWhites c) := by
  have hwhite := takes_skip_takeWhile (c := c) (p := isWhite) fun ch hch =>
    isBreak_eq_false_of_isWhite hch
  exact ⟨_, hwhite.rest, hwhite.mark, hwhite.line⟩

/-- So is a number. -/
theorem takes_skipNumber (h : skipNumber c = some c') : ∃ w, c.Takes w c' := by
  dsimp only [skipNumber] at h
  split at h
  · cases h
  · cases h
    refine ⟨_, takes_skip_takeWhile fun ch hch => ?_⟩
    have hclass : ' '.isDigit = false ∧ '\t'.isDigit = false ∧ '\n'.isDigit = false ∧
        '\r'.isDigit = false := by
      decide
    exact (isSolid_eq_true.mp (isSolid_of_class Char.isDigit hclass hch)).2

/-- A version is text of the line. -/
theorem takes_readVersion (h : readVersion c = some (kind, c')) :
    (∃ w, c.Takes w c') ∧ kind = .versionDirective := by
  unfold readVersion at h
  obtain ⟨c₁, hmajor, h⟩ := Option.bind_eq_some_iff.mp h
  split at h
  · next hdot =>
    obtain ⟨c₂, hminor, h⟩ := Option.bind_eq_some_iff.mp h
    cases h
    obtain ⟨w₁, h₁⟩ := takes_skipWhites c
    obtain ⟨w₂, h₂⟩ := takes_skipNumber hmajor
    obtain ⟨rest, hrest⟩ := List.head?_eq_some_iff.mp hdot
    obtain ⟨w₃, h₃⟩ := takes_skipNumber hminor
    exact ⟨⟨_, ((h₁.trans h₂).trans (takes_cons true hrest rfl)).trans h₃⟩, rfl⟩
  · cases h

/-- The prefix of a tag directive is text of the line. -/
theorem takes_skipTagPrefix (h : skipTagPrefix c = some c') : ∃ w, c.Takes w c' := by
  have huri {d d' : Cursor} {count count' : Nat}
      (h : skipUri isUriChar count d = some (count', d')) : ∃ w, d.Takes w d' := by
    obtain ⟨w, hw, -⟩ := takesSolid_skipUri (fun _ => isSolid_of_isUriChar) h
    exact ⟨w, hw⟩
  unfold skipTagPrefix at h
  split at h
  · next hmark =>
    obtain ⟨⟨count, c''⟩, hskip, rfl⟩ := Option.map_eq_some_iff.mp h
    obtain ⟨rest, hrest⟩ := List.head?_eq_some_iff.mp hmark
    obtain ⟨w, hw⟩ := huri hskip
    exact ⟨_, (takes_cons true hrest rfl).trans hw⟩
  · split at h
    · obtain ⟨⟨count, c''⟩, hskip, rfl⟩ := Option.map_eq_some_iff.mp h
      exact huri hskip
    · cases h
  · cases h

/-- The declaration of a handle is text of the line. -/
theorem takes_readDeclaration (h : readDeclaration c = some (kind, c')) :
    (∃ w, c.Takes w c') ∧ ∃ handle, kind = .tagDirective handle := by
  unfold readDeclaration at h
  obtain ⟨⟨handle, c₁⟩, hhandle, h⟩ := Option.bind_eq_some_iff.mp h
  dsimp only at h
  split at h
  · cases h
  · obtain ⟨c₂, hprefix, h⟩ := Option.bind_eq_some_iff.mp h
    split at h
    · cases h
      obtain ⟨w₁, h₁⟩ := takes_skipWhites c
      obtain ⟨w₂, h₂, -⟩ := takesSolid_readHandle hhandle
      obtain ⟨w₃, h₃⟩ := takes_skipWhites c₁
      obtain ⟨w₄, h₄⟩ := takes_skipTagPrefix hprefix
      exact ⟨⟨_, ((h₁.trans h₂).trans h₃).trans h₄⟩, _, rfl⟩
    · cases h

/-- A directive is passed with its line. -/
theorem passes_readDirective (hstart : c.next? = some '%')
    (h : readDirective c = some (kind, c')) :
    c.Passes c' ∧ (kind = .versionDirective ∨ ∃ handle, kind = .tagDirective handle) := by
  obtain ⟨rest, hrest⟩ := List.head?_eq_some_iff.mp hstart
  have hname : (c.skip 1).Takes ((c.skip 1).rest.takeWhile isNameChar)
      ((c.skip 1).skip ((c.skip 1).rest.takeWhile isNameChar).length) :=
    takes_skip_takeWhile fun ch hch => (isSolid_eq_true.mp (isSolid_of_isNameChar hch)).2
  have hbefore := (takes_cons true hrest (by rfl)).trans hname
  -- whatever the directive says, all of it is on one line
  have hline {kind' : TokenKind} {c₁ : Cursor}
      (hread : ∃ w, ((c.skip 1).skip ((c.skip 1).rest.takeWhile isNameChar).length).Takes w c₁)
      (h : (c₁.skipToLineEnd.bind fun c₂ =>
        some (kind', if c₂.rest.isEmpty then c₂ else c₂.skipBreak)) = some (kind, c')) :
      c.Passes c' ∧ kind = kind' := by
    obtain ⟨c₂, hend, h⟩ := Option.bind_eq_some_iff.mp h
    obtain ⟨seen, hblanks, hends⟩ := skipToLineEnd_eq_some hend
    obtain ⟨w, hw⟩ := hread
    obtain ⟨w', hw'⟩ := takes_skipBlanks hblanks
    have hpassed : c.Passes c₂ := .line ((hbefore.trans hw).trans hw') hends (.refl _)
    cases h
    refine ⟨?_, rfl⟩
    split
    · exact hpassed
    · next hne =>
      obtain ⟨ch, rest, hrest⟩ := List.exists_cons_of_ne_nil (by simpa using hne)
      rw [next?, hrest] at hends
      exact hpassed.trans (passes_skipBreak hrest hends)
  unfold readDirective at h
  dsimp only at h
  split at h
  · cases h
  · split at h
    · obtain ⟨⟨kind', c₁⟩, hread, h⟩ := Option.bind_eq_some_iff.mp h
      obtain ⟨htaken, rfl⟩ := takes_readVersion hread
      obtain ⟨hpassed, rfl⟩ := hline htaken h
      exact ⟨hpassed, .inl rfl⟩
    · split at h
      · obtain ⟨⟨kind', c₁⟩, hread, h⟩ := Option.bind_eq_some_iff.mp h
        obtain ⟨htaken, handle, rfl⟩ := takes_readDeclaration hread
        obtain ⟨hpassed, rfl⟩ := hline htaken h
        exact ⟨hpassed, .inr ⟨handle, rfl⟩⟩
      · obtain ⟨hpassed, rfl⟩ := hline ⟨_, takes_skipLine _⟩ h
        exact ⟨hpassed, .inr ⟨"", rfl⟩⟩

end Tag

/-! ## Plain scalars -/

namespace Plain

variable {c c' : Cursor} {inFlow : Bool} {indent : Int} {gap gap' : Gap} {text : List Char}

/-- What goes on with a plain scalar is no blank and no line break. -/
theorem isSolid_of_continues {ch : Char} {rest : List Char}
    (h : continues inFlow ch rest = true) : isWhite ch = false ∧ isBreak ch = false := by
  unfold continues at h
  split at h
  · cases h
  · next hblank =>
    rw [Bool.or_eq_true, not_or, Bool.not_eq_true, Bool.not_eq_true] at hblank
    exact hblank

/-- A word is what the rest starts with, without blanks and line breaks. -/
theorem word_spec (inFlow : Bool) (text : List Char) :
    word inFlow text <+: text ∧
      ∀ ch ∈ word inFlow text, isWhite ch = false ∧ isBreak ch = false := by
  induction text with
  | nil => exact ⟨List.prefix_rfl, nofun⟩
  | cons ch rest ih =>
    rw [word]
    split
    · next h =>
      exact ⟨List.cons_prefix_cons.mpr ⟨rfl, ih.1⟩,
        List.forall_mem_cons.mpr ⟨isSolid_of_continues h, ih.2⟩⟩
    · exact ⟨List.nil_prefix, nofun⟩

/-- A word is taken. -/
theorem takes_word (inFlow : Bool) (c : Cursor) :
    c.Takes (word inFlow c.rest) (c.skip (word inFlow c.rest).length) := by
  obtain ⟨hstart, hsolid⟩ := word_spec inFlow c.rest
  have htake := List.prefix_iff_eq_take.mp hstart
  have h := takes_move (c := c) true hstart.length_le fun ch hch => by
    rw [← htake] at hch
    exact (hsolid ch hch).2
  rwa [← htake] at h

/-- A word does not begin with a marker where the scalar goes on. -/
theorem head?_word (h : endsAt c = false) : (word inFlow c.rest).head? ≠ some '#' := by
  intro hhead
  obtain ⟨w, hw⟩ := List.head?_eq_some_iff.mp hhead
  obtain ⟨rest, hrest⟩ := (word_spec inFlow c.rest).1
  have hnext : c.next? = some '#' := by
    rw [next?, ← hrest, hw]
    rfl
  rw [endsAt, hnext] at h
  simp at h

/-- The blanks, line breaks and comments behind a word are passed. -/
theorem passes_skipGap (h : skipGap indent gap c = some (gap', c')) : c.Passes c' := by
  fun_induction skipGap indent gap c with
  | case2 gap c ch tail hc hwhite htab seen c'' hblanks hend ih =>
    exact (passes_skipWhite hc hwhite).trans ((passes_skipBlanks hblanks).trans (ih h))
  | case3 => cases h
  | case4 => cases h
  | case5 gap c ch tail hc hwhite htab ih => exact (passes_skipWhite hc hwhite).trans (ih h)
  | case6 gap c ch tail hc hwhite hbreak ih => exact (passes_skipBreak hc hbreak).trans (ih h)
  | case1 | case7 =>
    cases h
    exact .refl _

/-- Words are passed. -/
theorem passes_words (h : words inFlow indent gap c = some (text, gap', c')) : c.Passes c' := by
  have hword {c : Cursor} (hends : ¬ endsAt c = true) :
      c.Passes (c.skip (word inFlow c.rest).length) :=
    (takes_word inFlow c).passes (fun ch hch => ((word_spec inFlow c.rest).2 ch hch).1)
      (head?_word (by simpa using hends))
  fun_induction words inFlow indent gap c generalizing text
  case case1 | case3 =>
    cases h
    exact .refl _
  case case5 hends _ _ _ _ _ _ hgap hlast =>
    cases h
    exact (hword hends).trans (passes_skipGap hgap)
  case case6 hends _ _ _ _ _ _ hgap hlast hlt ih =>
    obtain ⟨⟨text', last, final⟩, hrest, h⟩ := Option.map_eq_some_iff.mp h
    cases h
    exact (hword hends).trans ((passes_skipGap hgap).trans (ih hrest))
  all_goals cases h

/-- A plain scalar is passed. -/
theorem passes_read {ended : Bool} (h : read inFlow indent c = some (text, ended, c')) :
    ∃ gap, words inFlow indent {} c = some (text, gap, c') := by
  unfold read at h
  split at h
  · cases h
  · obtain ⟨⟨text', gap, c''⟩, hwords, h⟩ := Option.map_eq_some_iff.mp h
    cases h
    exact ⟨gap, hwords⟩

end Plain

/-! ## Quoted scalars -/

namespace Quoted

variable {c c' : Cursor} {single : Bool} {indent : Int} {gap : Gap} {text : List Char}

/-- What a character is written as between quotes. -/
inductive IsItem : Bool → List Char → Prop
  | doubled : IsItem true ['\'', '\'']
  | single {ch : Char} (quote : ch ≠ '\'') : IsItem true [ch]
  | double {ch : Char} (quote : ch ≠ '"') (backslash : ch ≠ '\\') : IsItem false [ch]
  | escape {ch : Char} {ds : List Char} (digits : ∀ d ∈ ds, (hexValue? d).isSome = true) :
      IsItem false ('\\' :: ch :: ds)

/-- How the reader gets from a place between quotes to the one behind the closing quote. -/
inductive Path (single : Bool) : Cursor → Cursor → Prop
  | item {c d c' : Cursor} {w : List Char} (taken : c.Takes w d) (item : IsItem single w)
    (next : Path single d c') : Path single c c'
  | lineBreak {c c' : Cursor} {ch : Char} {rest : List Char} (start : c.rest = ch :: rest)
    (ends : isBreak ch = true) (next : Path single c.skipBreak c') : Path single c c'
  /-- A backslash at the end of a line joins it with the next. -/
  | joined {c c' : Cursor} {ch : Char} {rest : List Char} (double : single = false)
    (start : c.rest = '\\' :: ch :: rest) (ends : isBreak ch = true)
    (next : Path single (c.skip 1).skipBreak c') : Path single c c'
  | close {c : Cursor} {rest : List Char}
    (start : c.rest = (if single then '\'' else '"') :: rest) :
      Path single c (c.skip 1)

/-- A character that neither ends the scalar nor starts an escape stands for itself. -/
theorem isItem_one {ch : Char} (hquote : ch ≠ if single then '\'' else '"')
    (hbackslash : single = false → ch ≠ '\\') : IsItem single [ch] := by
  cases single with
  | true => exact .single hquote
  | false => exact .double hquote (hbackslash rfl)

/-- The characters of a number are digits. -/
theorem digits_of_hexNumber? {v v' : Nat} {ds : List Char} (h : hexNumber? v ds = some v') :
    ∀ d ∈ ds, (hexValue? d).isSome = true := by
  induction ds generalizing v with
  | nil => exact nofun
  | cons d ds ih =>
    obtain ⟨x, hx, h⟩ := Option.bind_eq_some_iff.mp h
    refine List.forall_mem_cons.mpr ⟨?_, ih h⟩
    rw [hx]
    rfl

/-- The characters of an escape behind its backslash. -/
theorem escape?_eq_some {rest : List Char} {value : Char} {length : Nat}
    (h : escape? rest = some (value, length)) : ∃ ch digits, rest.take length = ch :: digits ∧
      length ≤ rest.length ∧ ∀ d ∈ digits, (hexValue? d).isSome = true := by
  unfold escape? at h
  split at h
  · cases h
  · next ch rest =>
    split at h
    · obtain ⟨v, -, hv⟩ := Option.map_eq_some_iff.mp h
      cases hv
      exact ⟨ch, [], rfl, Nat.succ_pos _, List.forall_mem_nil _⟩
    · next digits hcount =>
      split at h
      · cases h
      · obtain ⟨v, hv, h⟩ := Option.map_eq_some_iff.mp h
        cases h
        obtain ⟨n, hn, -⟩ := Option.bind_eq_some_iff.mp hv
        exact ⟨ch, rest.take digits, rfl, by rw [List.length_cons]; omega,
          digits_of_hexNumber? hn⟩

/-- A digit of an escape is no line break. -/
theorem isBreak_of_isSome_hexValue? {d : Char} (h : (hexValue? d).isSome = true) :
    isBreak d = false := by
  by_contra hd
  rw [Bool.not_eq_false, isBreak, Bool.or_eq_true, decide_eq_true_eq, decide_eq_true_eq] at hd
  rcases hd with rfl | rfl <;> cases h

/-- An escape that does not join lines is taken whole. -/
theorem takes_escape {rest : List Char} {value : Char} {length : Nat} (hc : c.rest = '\\' :: rest)
    (hescape : escape? rest = some (value, length)) (hjoined : ¬ rest.head?.any isBreak = true) :
    ∃ w, c.Takes w (c.skip (length + 1)) ∧ IsItem false w := by
  obtain ⟨ch, digits, htake, hlength, hdigits⟩ := escape?_eq_some hescape
  have hfirst : isBreak ch = false := by
    have hhead : rest.head? = some ch := by
      rw [← List.take_append_drop length rest, htake]
      rfl
    rw [hhead] at hjoined
    simpa using hjoined
  have htaken := takes_move (c := c) (n := length + 1) true (by rw [hc]; simpa using hlength) (by
    rw [hc, List.take_succ_cons, htake]
    refine List.forall_mem_cons.mpr ⟨rfl, List.forall_mem_cons.mpr ⟨hfirst, fun d hd => ?_⟩⟩
    exact isBreak_of_isSome_hexValue? (hdigits d hd))
  rw [hc, List.take_succ_cons, htake] at htaken
  exact ⟨_, htaken, .escape hdigits⟩

/-- A backslash before a line break is the start of a joined line. -/
theorem exists_break_of_joined {rest : List Char} (h : rest.head?.any isBreak = true) :
    ∃ ch rest', rest = ch :: rest' ∧ isBreak ch = true := by
  obtain ⟨ch, hhead, hends⟩ := (Option.any_eq_true _ _).mp h
  obtain ⟨rest', rfl⟩ := List.head?_eq_some_iff.mp hhead
  exact ⟨ch, rest', rfl, hends⟩

/-- The body of a quoted scalar is read on such a path. -/
theorem path_of_body (h : body single indent gap c = some (text, c')) : Path single c c' := by
  -- where the scalar goes on, the text read behind a place is put behind what was read there
  have hmore {before text : List Char} {r : Option (List Char × Cursor)}
      (h : (r.map fun p => (before ++ p.1, p.2)) = some (text, c')) :
      ∃ after, r = some (after, c') := by
    obtain ⟨⟨after, c''⟩, hr, h⟩ := Option.map_eq_some_iff.mp h
    cases h
    exact ⟨after, hr⟩
  fun_induction body single indent gap c generalizing text
  case case3 gap c ch rest hc hwhite htab ih =>
    refine .item (takes_cons false hc (isBreak_eq_false_of_isWhite hwhite)) (isItem_one ?_ ?_) (ih h)
    · rintro rfl
      cases single <;> cases hwhite
    · rintro - rfl
      cases hwhite
  case case4 hc _ hbreak ih => exact .lineBreak hc hbreak (ih h)
  -- the cases of single quotes
  case case6 c rest _ _ hsingle hdoubled hc _ _ ih =>
    obtain ⟨after, h⟩ := hmore h
    obtain ⟨rest', rfl⟩ := List.head?_eq_some_iff.mp hdoubled
    have htaken : c.Takes ['\'', '\''] (c.skip 2) :=
      ⟨by rw [rest_skip, hc]; rfl, rfl, by simp; decide⟩
    subst hsingle
    exact .item htaken .doubled (ih h)
  case case7 hsingle _ hc _ _ =>
    cases h
    subst hsingle
    exact .close hc
  case case8 hc _ hbreak _ _ hsingle hquote ih =>
    obtain ⟨after, h⟩ := hmore h
    subst hsingle
    exact .item (takes_cons true hc (by simpa using hbreak))
      (isItem_one hquote fun h => absurd h (by decide)) (ih h)
  -- the cases of double quotes
  case case9 hdouble hc _ _ =>
    cases h
    rw [Bool.not_eq_true] at hdouble
    subst hdouble
    exact .close hc
  case case10 hdouble hjoined c' hclose hc _ _ _ =>
    cases h
    rw [Bool.not_eq_true] at hdouble
    obtain ⟨ch, rest', rfl, hends⟩ := exists_break_of_joined hjoined
    obtain ⟨rest'', hrest⟩ := List.head?_eq_some_iff.mp hclose
    subst hdouble
    exact .joined rfl hc hends (.close hrest)
  case case11 hdouble hjoined c' _ hc _ _ _ ih =>
    obtain ⟨after, h⟩ := hmore h
    obtain ⟨ch, rest', rfl, hends⟩ := exists_break_of_joined hjoined
    exact .joined (by simpa using hdouble) hc hends (ih h)
  case case12 c rest _ _ hdouble hjoined value length hescape hc _ _ _ ih =>
    obtain ⟨after, h⟩ := hmore h
    rw [Bool.not_eq_true] at hdouble
    obtain ⟨w, htaken, hitem⟩ := takes_escape hc hescape hjoined
    subst hdouble
    exact .item htaken hitem (ih h)
  case case14 hc _ hbreak _ _ hdouble hquote hbackslash ih =>
    obtain ⟨after, h⟩ := hmore h
    rw [Bool.not_eq_true] at hdouble
    subst hdouble
    exact .item (takes_cons true hc (by simpa using hbreak)) (isItem_one hquote fun _ => hbackslash)
      (ih h)
  all_goals cases h

/-- The path of a quoted scalar is crossed. -/
theorem Path.crosses (h : Path single c c') : c.Crosses c' := by
  induction h with
  | item taken _ _ ih => exact .text taken ih
  | lineBreak start ends _ ih => exact .lineBreak start ends rfl rfl ih
  | @joined c c' ch rest double start ends _ ih =>
    have hrest : (c.skip 1).rest = ch :: rest := by rw [rest_skip, start]; rfl
    exact .text (takes_cons true start rfl) (.lineBreak hrest ends rfl rfl ih)
  | @close c rest start =>
    refine (takes_cons true start ?_).crosses
    cases single <;> rfl

end Quoted

/-! ## Block scalars -/

namespace Block

variable {c c' : Cursor} {literal : Bool} {indent : Nat} {text : List Char}

/-- A chomping indicator is passed. -/
theorem passes_readChomping (c : Cursor) : c.Passes (readChomping c).2 := by
  unfold readChomping
  split
  · next chomping h =>
    obtain ⟨ch, hnext, hch⟩ := Option.bind_eq_some_iff.mp h
    obtain ⟨rest, hrest⟩ := List.head?_eq_some_iff.mp hnext
    unfold Chomping.ofChar? at hch
    split at hch
    · exact passes_skip_one hrest rfl rfl (by decide)
    · exact passes_skip_one hrest rfl rfl (by decide)
    · cases hch
  · exact .refl c

/-- An indentation indicator is passed. -/
theorem passes_readIncrement {increment : Option Nat} (h : readIncrement c = some (increment, c')) :
    c.Passes c' := by
  unfold readIncrement at h
  split at h
  · next d hnext =>
    obtain ⟨rest, hrest⟩ := List.head?_eq_some_iff.mp hnext
    split at h
    · cases h
    · split at h
      · next hdigit =>
        cases h
        have hclass : ' '.isDigit = false ∧ '\t'.isDigit = false ∧ '\n'.isDigit = false ∧
            '\r'.isDigit = false := by
          decide
        obtain ⟨hwhite, hbreak⟩ :=
          Tag.isSolid_eq_true.mp (Tag.isSolid_of_class Char.isDigit hclass hdigit)
        refine passes_skip_one hrest hwhite hbreak ?_
        rintro rfl
        exact absurd hdigit (by decide)
      · cases h
        exact .refl c
  · cases h
    exact .refl c

/-- A header is passed up to the end of its line. -/
theorem passes_readHeader {header : Header} (h : readHeader c = some (header, c')) :
    c.Passes c' ∧ endsLine c'.next? = true := by
  unfold readHeader at h
  obtain ⟨⟨increment, c₁⟩, hincrement, h⟩ := Option.bind_eq_some_iff.mp h
  obtain ⟨c₂, hend, h⟩ := Option.bind_eq_some_iff.mp h
  cases h
  have hsecond (b : Bool) : c₁.Passes (if b then readChomping c₁ else (none, c₁)).2 := by
    cases b
    · exact .refl c₁
    · exact passes_readChomping c₁
  obtain ⟨seen, hblanks, hends⟩ := skipToLineEnd_eq_some hend
  exact ⟨((passes_readChomping c).trans (passes_readIncrement hincrement)).trans
    ((hsecond _).trans (passes_skipBlanks hblanks)), hends⟩

/-- A header stays on its line. -/
theorem line_readHeader {header : Header} (h : readHeader c = some (header, c')) :
    c'.line = c.line := by
  have hchomping (c : Cursor) : (readChomping c).2.line = c.line := by
    unfold readChomping
    split <;> rfl
  unfold readHeader at h
  obtain ⟨⟨increment, c₁⟩, hincrement, h⟩ := Option.bind_eq_some_iff.mp h
  obtain ⟨c₂, hend, h⟩ := Option.bind_eq_some_iff.mp h
  cases h
  have hfirst : c₁.line = c.line := by
    rw [← hchomping c]
    unfold readIncrement at hincrement
    split at hincrement
    · split_ifs at hincrement <;> cases hincrement <;> rfl
    · cases hincrement
      rfl
  obtain ⟨seen, hblanks, -⟩ := skipToLineEnd_eq_some hend
  obtain ⟨w, htaken⟩ := takes_skipBlanks hblanks
  have hsecond (b : Bool) : (if b then readChomping c₁ else (none, c₁)).2.line = c₁.line := by
    cases b
    · rfl
    · exact hchomping c₁
  rw [line, htaken.mark]
  exact (hsecond _).trans hfirst

/-- A header is passed with its line break, up to where the next line begins or the source ends. -/
theorem passes_headerLine {header : Header} (h : readHeader c = some (header, c')) :
    c.Passes (if !c'.rest.isEmpty then c'.skipBreak else c') ∧
      ((if !c'.rest.isEmpty then c'.skipBreak else c').rest ≠ [] →
        (if !c'.rest.isEmpty then c'.skipBreak else c').column = 0 ∧
          (if !c'.rest.isEmpty then c'.skipBreak else c').line = c.line + 1) := by
  obtain ⟨hpassed, hends⟩ := passes_readHeader h
  cases hrest : c'.rest with
  | nil =>
    refine ⟨hpassed, fun hne => absurd ?_ hne⟩
    exact hrest
  | cons ch rest =>
    rw [next?, hrest] at hends
    refine ⟨hpassed.trans (passes_skipBreak hrest hends), fun _ => ⟨rfl, ?_⟩⟩
    rw [← line_readHeader h]
    rfl

/-- A block without lines reads as line feeds. -/
theorem eq_of_mem_blankText {chomping : Chomping} {headerEnded : Bool} {breaks : Nat} {ch : Char}
    (h : ch ∈ blankText chomping headerEnded breaks) : ch = '\n' := by
  unfold blankText at h
  split at h
  · cases h
  · cases chomping with
    | strip => cases h
    | clip => exact List.mem_singleton.mp h
    | keep =>
      dsimp only at h
      split at h
      · exact List.mem_singleton.mp h
      · exact List.eq_of_mem_replicate h

/-- How empty lines and the indentation of the line behind them are passed. -/
inductive Indents : Cursor → Cursor → Prop
  | done (c : Cursor) : Indents c c
  | space {c c' : Cursor} {rest : List Char} (start : c.rest = ' ' :: rest)
    (next : Indents c.skipWhite c') : Indents c c'
  | lineBreak {c c' : Cursor} {ch : Char} {rest : List Char} (start : c.rest = ch :: rest)
    (ends : isBreak ch = true) (next : Indents c.skipBreak c') : Indents c c'

/-- Indentation is passed. -/
theorem Indents.passes (h : Indents c c') : c.Passes c' := by
  induction h with
  | done c => exact .refl c
  | space start _ ih => exact (passes_skipWhite start rfl).trans ih
  | lineBreak start ends _ ih => exact (passes_skipBreak start ends).trans ih

/-- Whether a line of a block may begin at a place: there is text on it. -/
def AtText (c : Cursor) : Prop := ∀ ch ∈ c.next?, isBreak ch = false

/-- Moving over an indentation ends at text. -/
theorem indents_skipIndent (indent breaks : Nat) (c : Cursor) :
    Indents c (skipIndent indent breaks c).2 ∧ AtText (skipIndent indent breaks c).2 := by
  fun_induction skipIndent indent breaks c with
  | case1 breaks c hc => exact ⟨.done c, by rw [AtText, next?, hc]; exact nofun⟩
  | case2 breaks c ch tail hc hspace ih =>
    rw [Bool.and_eq_true, decide_eq_true_eq, decide_eq_true_eq] at hspace
    exact ⟨.space (hspace.1 ▸ hc) ih.1, ih.2⟩
  | case3 breaks c ch tail hc hspace hbreak ih => exact ⟨.lineBreak hc hbreak ih.1, ih.2⟩
  | case4 breaks c ch tail hc hspace hbreak =>
    refine ⟨.done c, ?_⟩
    rw [AtText, next?, hc]
    simpa using hbreak

/-- So does moving over the first indentation. -/
theorem indents_skipFirstIndent (deepest breaks : Nat) (c : Cursor) :
    Indents c (skipFirstIndent deepest breaks c).2.2 ∧
      AtText (skipFirstIndent deepest breaks c).2.2 := by
  fun_induction skipFirstIndent deepest breaks c with
  | case1 deepest breaks c hc => exact ⟨.done c, by rw [AtText, next?, hc]; exact nofun⟩
  | case2 deepest breaks c tail hc ih => exact ⟨.space hc ih.1, ih.2⟩
  | case3 deepest breaks c ch tail hc hspace hbreak ih => exact ⟨.lineBreak hc hbreak ih.1, ih.2⟩
  | case4 deepest breaks c ch tail hc hspace hbreak =>
    refine ⟨.done c, ?_⟩
    rw [AtText, next?, hc]
    simpa using hbreak

/-- Finding the indentation moves over it and ends at text. -/
theorem indents_findIndent (outer : Int) (increment : Option Nat) (c : Cursor) :
    Indents c (findIndent outer increment c).2.2 ∧ AtText (findIndent outer increment c).2.2 := by
  cases increment with
  | some n => exact indents_skipIndent _ 0 c
  | none => exact indents_skipFirstIndent 0 0 c

/-- How the lines of a block are read, whose text is among some characters. -/
inductive Path (indent : Nat) (text : List Char) : Cursor → Cursor → Prop
  /-- No line is left. -/
  | stop (c : Cursor) : Path indent text c c
  /-- The source ends with a line. -/
  | last {c d : Cursor} {w : List Char} (column : c.column = indent) (taken : c.Takes w d)
    (kept : w ⊆ text) : Path indent text c d
  /-- The next line begins behind its indentation, or there is none. -/
  | line {c d e c' : Cursor} {w : List Char} {ch : Char} {rest : List Char}
    (column : c.column = indent) (taken : c.Takes w d) (kept : w ⊆ text)
    (start : d.rest = ch :: rest)
    (ends : isBreak ch = true) (indents : Indents d.skipBreak e)
    (next : Path indent text e c') : Path indent text c c'

/-- The lines of a block are crossed. -/
theorem Path.crosses (h : Path indent text c c') : c.Crosses c' := by
  induction h with
  | stop c => exact .refl c
  | last _ taken _ => exact taken.crosses
  | line _ taken _ start ends indents _ ih =>
    exact .text taken (.lineBreak start ends rfl rfl (indents.passes.crosses.trans ih))

/-- Lines with text among other characters. -/
theorem Path.mono {text' : List Char} (h : Path indent text c c') (ht : text ⊆ text') :
    Path indent text' c c' := by
  induction h with
  | stop c => exact .stop c
  | last column taken kept => exact .last column taken (List.Subset.trans kept ht)
  | line column taken kept start ends indents _ ih =>
    exact .line column taken (List.Subset.trans kept ht) start ends indents ih

/-- A line of a block is taken. -/
theorem takes_line (c : Cursor) :
    c.Takes (c.rest.takeWhile fun x => !isBreak x)
      (if (c.rest.takeWhile fun x => !isBreak x).isEmpty then c
        else c.move (c.rest.takeWhile fun x => !isBreak x).length false) := by
  have h := takes_skip_takeWhile (c := c) (p := fun x => !isBreak x) fun ch hch => by
    simpa using hch
  split
  · next hempty =>
    rw [List.isEmpty_iff] at hempty
    rw [hempty]
    exact .refl c
  · exact ⟨h.rest, h.mark, h.line⟩

/-- Behind a line there is a line break, unless the source ends. -/
theorem exists_break {d : Cursor} (taken : c.Takes (c.rest.takeWhile fun x => !isBreak x) d)
    (hne : ¬ d.rest.isEmpty = true) : ∃ ch rest, d.rest = ch :: rest ∧ isBreak ch = true := by
  obtain ⟨ch, rest, hrest⟩ := List.exists_cons_of_ne_nil (by simpa using hne)
  have hends := taken.endsLine
  rw [next?, hrest] at hends
  exact ⟨ch, rest, hrest, hends⟩

/-- The lines of a block are read so. What was read before stays. -/
theorem path_readLines (literal : Bool) (indent : Nat) (s : Lines) (c : Cursor) :
    Path indent (readLines literal indent s c).1.text c (readLines literal indent s c).2 ∧
      s.text ⊆ (readLines literal indent s c).1.text := by
  have hcolumn {c : Cursor} {rest : Bool} (h : ¬ (decide (c.column ≠ indent) || rest) = true) :
      c.column = indent := by
    by_contra hne
    exact h (by simp [hne])
  have hkept (line separator text : List Char) :
      line ⊆ line.reverse ++ separator ++ text ∧ text ⊆ line.reverse ++ separator ++ text :=
    ⟨fun ch hch => by simp [hch], fun ch hch => by simp [hch]⟩
  fun_induction readLines literal indent s c
  case case1 | case2 => exact ⟨.stop _, List.Subset.refl _⟩
  case case3 hstart _ _ _ _ _ _ _ hend =>
    exact ⟨.last (hcolumn hstart) (takes_line _) (hkept _ _ _).1, (hkept _ _ _).2⟩
  case case4 s c hstart ch tail _ blank line text c' hne more c'' hindent hlt ih =>
    obtain ⟨ch', rest, hrest, hends⟩ := exists_break (takes_line c) hne
    have hindents := (indents_skipIndent indent 0 c'.skipBreak).1
    rw [hindent] at hindents
    refine ⟨.line (hcolumn hstart) (takes_line c) ?_ hrest hends hindents ih.1, ?_⟩
    · exact List.Subset.trans (hkept _ _ _).1 ih.2
    · exact List.Subset.trans (hkept _ _ _).2 ih.2
  case case5 s c hstart ch tail _ blank line text c' hne more c'' hindent hlt =>
    obtain ⟨ch', rest, hrest, hends⟩ := exists_break (takes_line c) hne
    have hindents := (indents_skipIndent indent 0 c'.skipBreak).1
    rw [hindent] at hindents
    exact ⟨.line (hcolumn hstart) (takes_line c) (hkept _ _ _).1 hrest hends hindents (.stop _),
      (hkept _ _ _).2⟩

/-- A block scalar is read by passing over its header and the indentation of its first line, and
then its lines. It counts from its first line, or from its indicator if there is none. -/
theorem read_eq_some {outer : Int} {start : Cursor} {mark : Mark}
    (h : read literal outer start = some (text, mark, c')) :
    (mark = start.mark ∧ (start.skip 1).Passes c' ∧ ∀ ch ∈ text, ch = '\n') ∨
      ∃ d c indent, (start.skip 1).Passes d ∧ (d.column = 0 ∧ d.line = start.line + 1) ∧
        Indents d c ∧
        (∃ ch rest, c.rest = ch :: rest ∧ isBreak ch = false) ∧ mark = c.mark ∧
        Path indent text c c' := by
  unfold read at h
  obtain ⟨⟨header, c₁⟩, hheader, h⟩ := Option.bind_eq_some_iff.mp h
  have hbehind := passes_headerLine hheader
  dsimp only at h
  generalize (if !c₁.rest.isEmpty then c₁.skipBreak else c₁) = d at h hbehind
  -- the indentation is found from the first line, whether or not there is text
  obtain ⟨hindents, htext⟩ := indents_findIndent outer header.increment d
  split at h
  · cases h
  · split at h
    · cases h
      exact .inl ⟨rfl, hbehind.1.trans hindents.passes, fun _ => eq_of_mem_blankText⟩
    · next hne =>
      split at h
      · cases h
      · cases h
        obtain ⟨ch, rest, hrest⟩ := List.exists_cons_of_ne_nil (by simpa using hne)
        obtain ⟨hpath, -⟩ := path_readLines literal (findIndent outer header.increment d).1
          { more := (findIndent outer header.increment d).2.1 }
          (findIndent outer header.increment d).2.2
        have hd : d.rest ≠ [] := by
          intro hd
          have hsuffix := hindents.passes.crosses.suffix
          rw [hd, hrest, List.suffix_nil] at hsuffix
          cases hsuffix
        refine .inr ⟨d, _, _, hbehind.1, hbehind.2 hd, hindents, ⟨ch, rest, hrest, ?_⟩, rfl,
          hpath.mono fun x hx => ?_⟩
        · exact htext ch (by rw [next?, hrest]; rfl)
        · exact List.mem_append_left _ (List.mem_reverse.mpr hx)

end Block

end QueryBook.Yaml
