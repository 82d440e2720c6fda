import QueryBook.Text.Quoted
import Mathlib.Data.List.Basic

/-!
# Quoted texts

A quoted text holds printable characters only, whatever the text holds, and it says where it ends:
what stands between its quotes is read back one character after the other, and the closing quote is
the first that begins none. So texts that begin with a quoted text are equal only if the texts in
quotes are, and what follows them.
-/

namespace QueryBook.Text

/-! ## Hexadecimal digits -/

/-- The value of a lower-case hexadecimal digit. -/
def hexValue (c : Char) : Nat := if c.isDigit then c.toNat - 48 else c.toNat - 87

/-- The number that hexadecimal digits stand for. -/
def ofHexDigits (ds : List Char) : Nat := ds.foldl (fun n c => 16 * n + hexValue c) 0

/-- The digits that numbers are written with. -/
def hexDigits : List Char :=
  ['0', '1', '2', '3', '4', '5', '6', '7', '8', '9', 'a', 'b', 'c', 'd', 'e', 'f']

theorem digitChar_mem_hexDigits : ∀ d < 16, Nat.digitChar d ∈ hexDigits := by decide

theorem hexValue_digitChar : ∀ d < 16, hexValue (Nat.digitChar d) = d := by decide

/-- A number is written with hexadecimal digits. -/
theorem mem_hexDigits (n : Nat) : ∀ c ∈ Nat.toDigits 16 n, c ∈ hexDigits := by
  induction n using Nat.strongRecOn with
  | _ n ih =>
    rw [Nat.toDigits_eq_if (by decide)]
    split
    · next h =>
      intro c hc
      rw [List.mem_singleton] at hc
      exact hc ▸ digitChar_mem_hexDigits n h
    · next h =>
      intro c hc
      rcases List.mem_append.mp hc with hc | hc
      · exact ih (n / 16) (by omega) c hc
      · rw [List.mem_singleton] at hc
        exact hc ▸ digitChar_mem_hexDigits (n % 16) (by omega)

/-- Its digits stand for the number. -/
theorem ofHexDigits_toDigits (n : Nat) : ofHexDigits (Nat.toDigits 16 n) = n := by
  induction n using Nat.strongRecOn with
  | _ n ih =>
    rw [Nat.toDigits_eq_if (by decide)]
    split
    · next h => simp [ofHexDigits, hexValue_digitChar n h]
    · next h =>
      have hrest := ih (n / 16) (by omega)
      unfold ofHexDigits at hrest ⊢
      rw [List.foldl_append, hrest, List.foldl_cons, List.foldl_nil,
        hexValue_digitChar (n % 16) (by omega)]
      omega

/-! ## Printable characters -/

/-- Characters that end a line: by line feed, vertical tab, form feed, carriage return, next line,
line separator or paragraph separator. -/
def isLineBreak (c : Char) : Bool :=
  [0x0A, 0x0B, 0x0C, 0x0D, 0x85, 0x2028, 0x2029].contains c.toNat

/-- Whether all characters of a text are printable. -/
def IsShown (text : String) : Prop := ∀ c ∈ text.toList, isPrintable c = true

instance (text : String) : Decidable (IsShown text) :=
  decidable_of_iff (text.toList.all isPrintable = true) List.all_eq_true

/-- Printable characters end no line. -/
theorem isLineBreak_of_isPrintable {c : Char} (h : isPrintable c = true) :
    isLineBreak c = false := by
  have hbreaks : ∀ n ∈ [0x0A, 0x0B, 0x0C, 0x0D, 0x85, 0x2028, 0x2029],
      inRanges Table.unprintable n = true := by decide +kernel
  rw [isLineBreak, ← Bool.not_eq_true, List.contains_iff_mem]
  intro hmem
  rw [isPrintable, hbreaks _ hmem] at h
  cases h

theorem IsShown.append {a b : String} (ha : IsShown a) (hb : IsShown b) : IsShown (a ++ b) := by
  intro c hc
  rw [String.toList_append, List.mem_append] at hc
  exact hc.elim (ha c) (hb c)

/-- A character is quoted by printable ones. -/
theorem isPrintable_quotedChar (c : Char) : ∀ d ∈ quotedChar c, isPrintable d = true := by
  have hdigits : ∀ d ∈ hexDigits, isPrintable d = true := List.all_eq_true.mp (by decide)
  have hescape : ∀ d ∈ codePointEscape c, isPrintable d = true := by
    intro d hd
    simp only [codePointEscape, List.mem_append] at hd
    rcases hd with (hd | hd) | hd
    · exact List.all_eq_true.mp (by decide : ['\\', 'u', '\x7b'].all isPrintable = true) d hd
    · exact hdigits d (mem_hexDigits _ d hd)
    · exact List.all_eq_true.mp (by decide : ['\x7d'].all isPrintable = true) d hd
  rw [← List.all_eq_true]
  unfold quotedChar
  split_ifs with h0 ht hr hn hb hq hother
  · decide
  · decide
  · decide
  · decide
  · decide
  · decide
  · exact List.all_eq_true.mpr hescape
  · rw [Bool.or_eq_true, not_or] at hother
    simpa using hother.2

/-- **Quoted texts are printable.** -/
theorem isShown_quoted (text : String) : IsShown (quoted text) := by
  have hquote : isPrintable '"' = true := by decide
  intro c hc
  rw [quoted, String.toList_ofList, quotedChars, List.mem_append, List.mem_cons,
    List.mem_singleton, List.mem_flatMap] at hc
  rcases hc with (rfl | ⟨d, -, hd⟩) | rfl
  · exact hquote
  · exact isPrintable_quotedChar d c hd
  · exact hquote

/-! ## Reading what is quoted -/

/-- Reads a character as it stands between quotes. -/
def unquotedChar? : List Char → Option (Char × List Char)
  | '"' :: _ => none
  | '\\' :: '0' :: rest => some ('\x00', rest)
  | '\\' :: 't' :: rest => some ('\t', rest)
  | '\\' :: 'r' :: rest => some ('\r', rest)
  | '\\' :: 'n' :: rest => some ('\n', rest)
  | '\\' :: 'u' :: '\x7b' :: rest =>
    some (Char.ofNat (ofHexDigits (rest.takeWhile (· ≠ '\x7d'))),
      (rest.dropWhile (· ≠ '\x7d')).drop 1)
  | '\\' :: c :: rest => some (c, rest)
  | c :: rest => some (c, rest)
  | [] => none

/-- A quoted character is read back, with what follows it. -/
theorem unquotedChar?_quotedChar (c : Char) (rest : List Char) :
    unquotedChar? (quotedChar c ++ rest) = some (c, rest) := by
  have hbrace : ∀ d ∈ Nat.toDigits 16 c.toNat, decide (d ≠ '\x7d') = true := by
    intro d hd
    have hno : hexDigits.all (fun d => decide (d ≠ '\x7d')) = true := by decide
    exact List.all_eq_true.mp hno d (mem_hexDigits _ d hd)
  unfold quotedChar
  split_ifs with h0 ht hr hn hb hq hother
  · rw [h0]; rfl
  · rw [ht]; rfl
  · rw [hr]; rfl
  · rw [hn]; rfl
  · rw [hb]; rfl
  · rw [hq]; rfl
  · rw [codePointEscape]
    simp only [List.cons_append, List.nil_append, List.append_assoc, unquotedChar?]
    rw [List.takeWhile_append_of_pos hbrace, List.dropWhile_append_of_pos hbrace]
    simp [ofHexDigits_toDigits]
  · rw [List.singleton_append, unquotedChar?.eq_def]
    split <;> simp_all

/-- The first of the characters in quotes, and the others, are those of the other text. -/
theorem flatMap_quotedChar_inj {a b r s : List Char}
    (h : a.flatMap quotedChar ++ '"' :: r = b.flatMap quotedChar ++ '"' :: s) : a = b ∧ r = s := by
  have hclose (c : Char) (t t' : List Char) : '"' :: t ≠ quotedChar c ++ t' := by
    intro heq
    have hread := unquotedChar?_quotedChar c t'
    rw [← heq] at hread
    cases hread
  induction a generalizing b with
  | nil =>
    cases b with
    | nil => exact ⟨rfl, List.tail_eq_of_cons_eq h⟩
    | cons d b =>
      rw [List.flatMap_cons, List.append_assoc] at h
      exact absurd h (hclose d _ _)
  | cons c a ih =>
    cases b with
    | nil =>
      rw [List.flatMap_cons, List.append_assoc] at h
      exact absurd h.symm (hclose c _ _)
    | cons d b =>
      rw [List.flatMap_cons, List.flatMap_cons, List.append_assoc, List.append_assoc] at h
      have hread := congrArg unquotedChar? h
      rw [unquotedChar?_quotedChar, unquotedChar?_quotedChar, Option.some.injEq,
        Prod.mk.injEq] at hread
      obtain ⟨rfl, hrest⟩ := hread
      obtain ⟨rfl, rfl⟩ := ih hrest
      exact ⟨rfl, rfl⟩

/-- **Quoted texts delimit themselves.** Where two texts begin with quoted ones and are equal, the
texts in quotes are equal, and what follows them. -/
theorem quoted_append_inj {a b : String} {r s : List Char}
    (h : (quoted a).toList ++ r = (quoted b).toList ++ s) : a = b ∧ r = s := by
  simp only [quoted, quotedChars, String.toList_ofList, List.cons_append, List.append_assoc,
    List.cons.injEq, true_and, List.nil_append] at h
  obtain ⟨htext, hrest⟩ := flatMap_quotedChar_inj h
  exact ⟨String.ext htext, hrest⟩

end QueryBook.Text
