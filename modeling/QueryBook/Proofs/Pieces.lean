import QueryBook.Text.Pieces
import Mathlib.Data.List.Basic
import Mathlib.Data.List.TakeWhile

/-!
# Pieces and lines

Splitting a text at a separator and joining its pieces again, the separators at its end, and lines
as a text.
-/

namespace QueryBook.Text

/-! ## Pieces -/

variable {separator : Char}

/-- A text without separators is a single piece. -/
theorem splitOnChar_of_not_mem {text : List Char} (h : separator ∉ text) :
    splitOnChar separator text = [text] := by
  induction text with
  | nil => rfl
  | cons c rest ih =>
    rw [List.mem_cons, not_or] at h
    rw [splitOnChar, if_neg (Ne.symm h.1), ih h.2]

theorem splitOnChar_append (before after : List Char) :
    splitOnChar separator (before ++ separator :: after) =
      splitOnChar separator before ++ splitOnChar separator after := by
  induction before with
  | nil => simp [splitOnChar]
  | cons c rest ih =>
    rw [List.cons_append, splitOnChar, splitOnChar, ih]
    by_cases hc : c = separator
    · rw [if_pos hc, if_pos hc, List.cons_append]
    · rw [if_neg hc, if_neg hc]
      obtain ⟨piece, pieces, h⟩ := List.exists_cons_of_ne_nil (splitOnChar_ne_nil separator rest)
      rw [h]
      rfl

/-- No piece holds the separator. -/
theorem not_mem_of_mem_splitOnChar {text piece : List Char}
    (h : piece ∈ splitOnChar separator text) : separator ∉ piece := by
  induction text generalizing piece with
  | nil =>
    rw [splitOnChar, List.mem_singleton] at h
    rw [h]
    exact List.not_mem_nil
  | cons c rest ih =>
    rw [splitOnChar] at h
    obtain ⟨first, pieces, hs⟩ := List.exists_cons_of_ne_nil (splitOnChar_ne_nil separator rest)
    by_cases hc : c = separator
    · rw [if_pos hc, List.mem_cons] at h
      rcases h with rfl | h
      · exact List.not_mem_nil
      · exact ih h
    · rw [if_neg hc, hs] at h
      rcases List.mem_cons.mp h with rfl | h
      · rw [List.mem_cons, not_or]
        exact ⟨Ne.symm hc, ih (hs ▸ List.mem_cons_self)⟩
      · exact ih (hs ▸ List.mem_cons_of_mem _ h)

/-- A text is the first piece of a longer one, up to the separator behind it, exactly if it holds
no separator itself. -/
theorem splitOnChar_append_eq_cons_iff {before after : List Char} :
    splitOnChar separator (before ++ separator :: after) =
      before :: splitOnChar separator after ↔ separator ∉ before := by
  constructor
  · intro h
    exact not_mem_of_mem_splitOnChar (h ▸ List.mem_cons_self)
  · intro h
    rw [splitOnChar_append, splitOnChar_of_not_mem h, List.singleton_append]

/-- What a piece holds is in the text. -/
theorem mem_of_mem_splitOnChar {text piece : List Char} (h : piece ∈ splitOnChar separator text)
    {c : Char} (hc : c ∈ piece) : c ∈ text := by
  induction text generalizing piece with
  | nil =>
    rw [splitOnChar, List.mem_singleton] at h
    rw [h] at hc
    exact hc
  | cons d rest ih =>
    rw [splitOnChar] at h
    obtain ⟨first, pieces, hs⟩ := List.exists_cons_of_ne_nil (splitOnChar_ne_nil separator rest)
    by_cases hd : d = separator
    · rw [if_pos hd, List.mem_cons] at h
      rcases h with rfl | h
      · cases hc
      · exact List.mem_cons_of_mem _ (ih h hc)
    · rw [if_neg hd, hs] at h
      rcases List.mem_cons.mp h with rfl | h
      · rcases List.mem_cons.mp hc with rfl | hc
        · exact List.mem_cons_self
        · exact List.mem_cons_of_mem _ (ih (hs ▸ List.mem_cons_self) hc)
      · exact List.mem_cons_of_mem _ (ih (hs ▸ List.mem_cons_of_mem _ h) hc)

/-- A text is split at its last separator. -/
theorem exists_last_separator {text : List Char} (h : separator ∈ text) :
    ∃ before after, text = before ++ separator :: after ∧ separator ∉ after := by
  obtain ⟨after, before, hr, hn⟩ := List.eq_append_cons_of_mem (List.mem_reverse.mpr h)
  refine ⟨before.reverse, after.reverse, ?_, ?_⟩
  · rw [← List.reverse_reverse text, hr]
    simp
  · rw [List.mem_reverse]
    exact hn

/-- What is put behind a text without a separator is part of its last piece. -/
theorem splitOnChar_append_of_not_mem (text : List Char) {tail : List Char}
    (h : separator ∉ tail) :
    ∃ before piece, splitOnChar separator text = before ++ [piece] ∧
      splitOnChar separator (text ++ tail) = before ++ [piece ++ tail] := by
  by_cases hs : separator ∈ text
  · obtain ⟨before, after, rfl, hn⟩ := exists_last_separator hs
    refine ⟨splitOnChar separator before, after, ?_, ?_⟩
    · rw [splitOnChar_append, splitOnChar_of_not_mem hn]
    · have ha : separator ∉ after ++ tail := by simp [hn, h]
      rw [List.append_assoc, List.cons_append, splitOnChar_append, splitOnChar_of_not_mem ha]
  · refine ⟨[], text, splitOnChar_of_not_mem hs, ?_⟩
    exact splitOnChar_of_not_mem (by simp [hs, h])

/-- The pieces with the separator between them are the text. -/
theorem intercalate_splitOnChar (text : List Char) :
    List.intercalate [separator] (splitOnChar separator text) = text := by
  induction text with
  | nil => rfl
  | cons c rest ih =>
    obtain ⟨piece, pieces, h⟩ := List.exists_cons_of_ne_nil (splitOnChar_ne_nil separator rest)
    rw [splitOnChar]
    split
    · next hc =>
      rw [List.intercalate_cons_of_ne_nil (splitOnChar_ne_nil separator rest), ih, hc]
      rfl
    · rw [h] at ih ⊢
      dsimp only
      cases pieces with
      | nil =>
        rw [List.intercalate_singleton] at ih ⊢
        rw [ih]
      | cons p ps =>
        rw [List.intercalate_cons_cons] at ih ⊢
        rw [← ih]
        rfl

/-- The last piece of a text that does not end with a separator is not empty. -/
theorem exists_last_piece {text : List Char} (hne : text ≠ [])
    (hlast : text.getLast? ≠ some separator) :
    ∃ before piece, splitOnChar separator text = before ++ [piece] ∧ piece ≠ [] := by
  by_cases hs : separator ∈ text
  · obtain ⟨before, after, rfl, hn⟩ := exists_last_separator hs
    refine ⟨splitOnChar separator before, after, ?_, ?_⟩
    · rw [splitOnChar_append, splitOnChar_of_not_mem hn]
    · rintro rfl
      exact hlast (by simp)
  · exact ⟨[], text, splitOnChar_of_not_mem hs, hne⟩

/-! ## The end of a text -/

theorem dropEndWhile_append (p : Char → Bool) (text : List Char) :
    dropEndWhile p text ++ (text.reverse.takeWhile p).reverse = text := by
  rw [dropEndWhile, ← List.reverse_append, List.takeWhile_append_dropWhile, List.reverse_reverse]

/-- What is left does not end with what is taken off. -/
theorem getLast?_dropEndWhile (p : Char → Bool) (text : List Char) :
    ∀ c ∈ (dropEndWhile p text).getLast?, p c = false := by
  intro c hc
  rw [dropEndWhile, List.getLast?_reverse] at hc
  have := List.head?_dropWhile_not p text.reverse
  rw [hc] at this
  simpa using this

theorem dropEndWhile_eq_self {p : Char → Bool} {text : List Char}
    (h : ∀ c ∈ text.getLast?, p c = false) : dropEndWhile p text = text := by
  rw [dropEndWhile, List.reverse_eq_iff]
  rw [← List.head?_reverse] at h
  cases htext : text.reverse with
  | nil => rfl
  | cons c rest =>
    rw [htext] at h
    rw [List.dropWhile_cons_of_neg (by simp [h c rfl])]

/-- A text keeps what comes up to a character that is not taken off. -/
theorem dropEndWhile_append_cons {p : Char → Bool} {c : Char} (hc : p c = false)
    (before rest : List Char) :
    dropEndWhile p (before ++ c :: rest) = before ++ c :: dropEndWhile p rest := by
  have hstart : (c :: before.reverse).dropWhile p = c :: before.reverse :=
    List.dropWhile_cons_of_neg (by simp [hc])
  rw [dropEndWhile, dropEndWhile, List.reverse_append, List.reverse_cons, List.append_assoc,
    List.singleton_append, List.dropWhile_append, hstart]
  split
  · next h => simp [List.isEmpty_iff.mp h]
  · simp

/-- A text that does not start with what is taken off its end keeps its start. -/
theorem dropEndWhile_cons {p : Char → Bool} {c : Char} (hc : p c = false) (rest : List Char) :
    dropEndWhile p (c :: rest) = c :: dropEndWhile p rest :=
  dropEndWhile_append_cons hc [] rest

/-- What is left of a text is in it. -/
theorem mem_of_mem_dropEndWhile {p : Char → Bool} {text : List Char} {c : Char}
    (h : c ∈ dropEndWhile p text) : c ∈ text := by
  rw [← dropEndWhile_append p text]
  exact List.mem_append_left _ h

/-- What is left of a text starts as the text does. -/
theorem head?_dropEndWhile {p : Char → Bool} {text : List Char} {c : Char}
    (h : c ∈ (dropEndWhile p text).head?) : c ∈ text.head? := by
  rw [← dropEndWhile_append p text, List.head?_append, Option.mem_def, Option.mem_def.mp h]
  rfl

/-- A text is what is left without a character at its end, and that character so many times. -/
theorem dropEndWhile_eq_append_replicate (c : Char) (text : List Char) :
    dropEndWhile (· = c) text ++
      List.replicate (text.length - (dropEndWhile (· = c) text).length) c = text := by
  have happend := dropEndWhile_append (· = c) text
  have hrep : (text.reverse.takeWhile (· = c)).reverse =
      List.replicate (text.reverse.takeWhile (· = c)).length c := by
    rw [← List.length_reverse]
    refine List.eq_replicate_of_mem fun d hd => ?_
    simpa using List.mem_takeWhile_imp (List.mem_reverse.mp hd)
  have hlength := congrArg List.length happend
  rw [List.length_append, List.length_reverse] at hlength
  rw [← hlength, Nat.add_sub_cancel_left, ← hrep, happend]

/-! ## Lines -/

/-- Lines as a text, each with its end. -/
def unlines (ls : List (List Char)) : List Char := ls.flatMap (· ++ ['\n'])

@[simp] theorem unlines_nil : unlines [] = [] := rfl

@[simp] theorem unlines_cons (l : List Char) (ls : List (List Char)) :
    unlines (l :: ls) = l ++ '\n' :: unlines ls := by
  simp [unlines]

@[simp] theorem unlines_append (ls ls' : List (List Char)) :
    unlines (ls ++ ls') = unlines ls ++ unlines ls' := by
  simp [unlines]

/-- Lines with their ends have the lines as pieces, and nothing behind the last one. -/
theorem splitOnChar_unlines {ls : List (List Char)} (h : ∀ l ∈ ls, '\n' ∉ l) :
    splitOnChar '\n' (unlines ls) = ls ++ [[]] := by
  induction ls with
  | nil => rfl
  | cons l rest ih =>
    rw [List.forall_mem_cons] at h
    rw [unlines_cons, splitOnChar_append_eq_cons_iff.mpr h.1, ih h.2, List.cons_append]

/-- Whether what follows a text begins a line. -/
def EndsLine (text : List Char) : Prop := ∀ c ∈ text.getLast?, c = '\n'

instance (text : List Char) : Decidable (EndsLine text) :=
  Option.decidableForallMem text.getLast?

theorem EndsLine.append {before text : List Char} (hbefore : EndsLine before)
    (h : EndsLine text) : EndsLine (before ++ text) := by
  intro c hc
  rw [List.getLast?_append] at hc
  cases hlast : text.getLast? with
  | none =>
    rw [hlast] at hc
    exact hbefore c hc
  | some d =>
    rw [hlast] at hc
    exact h c (hlast ▸ hc)

/-- A line feed ends a line. -/
theorem endsLine_feed (text : List Char) : EndsLine (text ++ ['\n']) := by
  intro c hc
  rw [List.getLast?_concat] at hc
  exact (Option.some.inj hc).symm

/-- Lines end a line. -/
theorem endsLine_unlines (ls : List (List Char)) : EndsLine (unlines ls) := by
  induction ls with
  | nil => nofun
  | cons l ls ih =>
    rw [unlines_cons, List.append_cons]
    exact (endsLine_feed l).append ih

end QueryBook.Text
