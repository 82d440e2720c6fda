import QueryBook.Proofs.PlainScalars
import QueryBook.Yaml.Scalar.Quoted

/-!
# Reading quoted scalars

What is written between double quotes is read back: every character, escaped or not, reads as
itself, and the closing quote is found behind the last one.
-/

namespace QueryBook

open Canonical

/-- Moving over text in two parts. -/
theorem Yaml.Cursor.skip_skip (c : Cursor) (n m : Nat) : (c.skip n).skip m = c.skip (n + m) := by
  simp [skip, move, List.drop_drop, Nat.add_assoc]

namespace Yaml.Quoted

/-! ## Escapes -/

/-- Two hexadecimal digits read as the number they are written for. -/
theorem hexNumber?_hexByte : ∀ n < 256,
    hexNumber? 0 (hexByte n) = some n ∧ (hexByte n).length = 2 := by
  decide +kernel

/-- A control character has a code of two hexadecimal digits. -/
theorem toNat_lt_of_isControl {c : Char} (h : Text.isControl c = true) : c.toNat < 256 := by
  simp only [Text.isControl, Bool.or_eq_true, Bool.and_eq_true, decide_eq_true_eq] at h
  omega

/-- The two digits are no controls, and no backslash is among them. -/
theorem of_mem_hexByte {n : Nat} (hn : n < 256) :
    ∀ d ∈ hexByte n, Text.isControl d = false ∧ d ≠ '\\' := by
  have hall : ∀ n < 256, (hexByte n).all (fun d => !Text.isControl d && d ≠ '\\') = true := by
    decide +kernel
  simpa using hall n hn

/-- The escape of a control character reads as the character. -/
theorem escape?_hex {c : Char} (h : Text.isControl c = true) (rest : List Char) :
    escape? ('x' :: hexByte c.toNat ++ rest) = some (c, 3) := by
  obtain ⟨hn, hl⟩ := hexNumber?_hexByte c.toNat (toNat_lt_of_isControl h)
  have htake : (hexByte c.toNat ++ rest).take 2 = hexByte c.toNat := by
    rw [← hl, List.take_left]
  have hlength : ¬ (hexByte c.toNat ++ rest).length < 2 := by
    rw [List.length_append, hl]
    omega
  rw [List.cons_append, escape?]
  show (if (hexByte c.toNat ++ rest).length < 2 then none
    else ((hexNumber? 0 ((hexByte c.toNat ++ rest).take 2)).bind charOfCodePoint?).map (·, 3)) = _
  have hvalid : c.toNat.isValidChar := c.valid
  rw [if_neg hlength, htake, hn, Option.bind_some, charOfCodePoint?, if_pos hvalid]
  simp

/-- How a character stands between double quotes. -/
inductive Escaping (ch : Char) : List Char → Prop where
  /-- A character that stands for itself. -/
  | plain : Text.isControl ch = false → ch ≠ '"' → ch ≠ '\\' → Escaping ch [ch]
  /-- A backslash, and behind it what reads as the character. -/
  | escape (first : Char) (digits : List Char) :
      (∀ rest, escape? (first :: digits ++ rest) = some (ch, digits.length + 1)) →
      Text.isControl first = false → (∀ d ∈ digits, Text.isControl d = false ∧ d ≠ '\\') →
      Escaping ch ('\\' :: first :: digits)

theorem escaping_escapedChar (ch : Char) : Escaping ch (escapedChar ch) := by
  unfold escapedChar
  split_ifs with hquote hslash hfeed hreturn htab hcontrol
  · exact .escape '"' [] (fun rest => by rw [hquote]; rfl) (by decide) nofun
  · exact .escape '\\' [] (fun rest => by rw [hslash]; rfl) (by decide) nofun
  · exact .escape 'n' [] (fun rest => by rw [hfeed]; rfl) (by decide) nofun
  · exact .escape 'r' [] (fun rest => by rw [hreturn]; rfl) (by decide) nofun
  · exact .escape 't' [] (fun rest => by rw [htab]; rfl) (by decide) nofun
  · have hcode := toNat_lt_of_isControl hcontrol
    refine .escape 'x' (hexByte ch.toNat) (fun rest => ?_) (by decide) (of_mem_hexByte hcode)
    rw [escape?_hex hcontrol, (hexNumber?_hexByte _ hcode).2]
  · exact .plain (by simpa using hcontrol) hquote hslash

/-- A character is written without control characters between quotes. -/
theorem Escaping.not_isControl {ch : Char} {written : List Char} (h : Escaping ch written) :
    ∀ d ∈ written, Text.isControl d = false := by
  cases h with
  | plain hcontrol => simpa using hcontrol
  | escape first digits _ hfirst hdigits =>
    simp only [List.forall_mem_cons]
    exact ⟨by decide, hfirst, fun d hd => (hdigits d hd).1⟩

/-! ## Bodies -/

variable {c : Cursor} {gap : Gap} {indent : Int} {rest : List Char}

/-- Whether the reader is inside a line, where text may stand. -/
structure Inside (indent : Int) (c : Cursor) : Prop where
  column_pos : 0 < c.column
  indent_le : indent ≤ c.column
  fresh : c.fresh = false

/-- Moving over text stays inside the line. -/
theorem Inside.skip (h : Inside indent c) (n : Nat) : Inside indent (c.skip n) := by
  have hc : (c.skip n).column = c.column + n := rfl
  refine ⟨?_, ?_, ?_⟩
  · have := h.column_pos
    omega
  · have := h.indent_le
    omega
  · show (c.fresh && false) = false
    rw [Bool.and_false]

/-- Text may stand inside a line. -/
theorem Inside.isForbidden (h : Inside indent c) : isForbidden indent c = false := by
  have := h.column_pos
  have := h.indent_le
  unfold Quoted.isForbidden Cursor.atDocumentIndicator
  rw [Bool.or_eq_false_iff, decide_eq_false_iff_not, Bool.and_eq_false_iff,
    decide_eq_false_iff_not]
  exact ⟨by omega, .inl (by omega)⟩

/-- A character that is written as it is goes to the text. -/
theorem body_cons {ch : Char} (hc : Inside indent c) (hrest : c.rest = ch :: rest)
    (hwhite : isWhite ch = false) (hbreak : isBreak ch = false) (hquote : ch ≠ '"')
    (hbackslash : ch ≠ '\\') :
    body false indent gap c =
      (body false indent {} (c.skip 1)).map fun p => (gap.text ++ [ch] ++ p.1, p.2) := by
  rw [body]
  split
  · next h => simp [hrest] at h
  · next x tail h =>
    rw [hrest] at h
    cases h
    rw [hwhite, hbreak, hc.isForbidden]
    simp [hquote, hbackslash]

/-- A space widens the gap. -/
theorem body_space (hc : Inside indent c) (hrest : c.rest = ' ' :: rest) (hgap : gap.broken = false) :
    body false indent gap c = body false indent (gap.white ' ') (c.skip 1) := by
  have hskip : c.skipWhite = c.skip 1 := by
    simp [Cursor.skipWhite, Cursor.skip, Cursor.move, hc.fresh]
  rw [body]
  split
  · next h => simp [hrest] at h
  · next x tail h =>
    rw [hrest] at h
    cases h
    rw [if_pos (by decide), hgap, hskip]
    rfl

/-- An escape reads as its character. -/
theorem body_escape {value : Char} {length : Nat} {tail : List Char} (hc : Inside indent c)
    (hrest : c.rest = '\\' :: tail) (hbreak : tail.head?.any isBreak = false)
    (hescape : escape? tail = some (value, length)) :
    body false indent gap c =
      (body false indent {} (c.skip (length + 1))).map
        fun p => (gap.text ++ [value] ++ p.1, p.2) := by
  rw [body]
  split
  · next h => simp [hrest] at h
  · next x tail h =>
    rw [hrest] at h
    cases h
    rw [if_neg (by decide), if_neg (by decide), hc.isForbidden]
    simp [hbreak, hescape]

/-- The closing quote ends the text. -/
theorem body_quote (hc : Inside indent c) (hrest : c.rest = '"' :: rest) :
    body false indent gap c = some (gap.text, c.skip 1) := by
  rw [body]
  split
  · next h => simp [hrest] at h
  · next x tail h =>
    rw [hrest] at h
    cases h
    rw [if_neg (by decide), if_neg (by decide), hc.isForbidden]
    simp

/-- A character other than a space reads as itself, as it is written between double quotes. -/
theorem Escaping.body_eq {ch : Char} {written : List Char} (h : Escaping ch written)
    (hc : Inside indent c) (hrest : c.rest = written ++ rest) (hspace : ch ≠ ' ') :
    body false indent gap c =
      (body false indent {} (c.skip written.length)).map
        fun p => (gap.text ++ [ch] ++ p.1, p.2) := by
  cases h with
  | plain hcontrol hquote hslash =>
    obtain ⟨hwhite, hbreak⟩ := Plain.isWhite_of_not_isControl hcontrol
    exact body_cons hc hrest (by rw [hwhite, decide_eq_false hspace]) hbreak hquote hslash
  | escape first digits hescape hfirst =>
    have hbreak : isBreak first = false := (Plain.isWhite_of_not_isControl hfirst).2
    exact body_escape hc hrest (by simpa using hbreak) (hescape rest)

/-- A space is written as it is. -/
theorem escapedChar_space : escapedChar ' ' = [' '] := by decide

/-- A text between double quotes is read, up to behind the closing quote. -/
theorem body_doubleQuoted {text : List Char} (hc : Inside indent c)
    (hrest : c.rest = text.flatMap escapedChar ++ '"' :: rest) (hgap : gap.broken = false) :
    body false indent gap c =
      some (gap.text ++ text, c.skip ((text.flatMap escapedChar).length + 1)) := by
  induction text generalizing c gap with
  | nil =>
    rw [body_quote hc hrest, List.append_nil]
    rfl
  | cons ch tail ih =>
    rw [List.flatMap_cons, List.append_assoc] at hrest
    have htail : (c.skip (escapedChar ch).length).rest =
        tail.flatMap escapedChar ++ '"' :: rest := by
      rw [Cursor.rest_skip, hrest, List.drop_left]
    by_cases hspace : ch = ' '
    · have hone : c.skip 1 = c.skip (escapedChar ch).length := by rw [hspace]; rfl
      rw [hspace, escapedChar_space] at hrest
      rw [body_space hc hrest hgap, hone,
        ih (hc.skip _) htail (by simp [Gap.white, hgap]), Cursor.skip_skip, hspace]
      simp [Gap.text, Gap.white, hgap, Nat.add_assoc]
    · rw [(escaping_escapedChar ch).body_eq hc hrest hspace, ih (hc.skip _) htail rfl,
        Option.map_some, Cursor.skip_skip]
      simp [Nat.add_assoc]

/-! ## Scalars -/

/-- The characters of a text between double quotes. -/
theorem toList_doubleQuoted (text : String) :
    (doubleQuoted text).toList = '"' :: text.toList.flatMap escapedChar ++ ['"'] :=
  String.toList_ofList

/-- What may follow a scalar in a block mapping: the `:` of a key or the end of the line. -/
def Follows (ch : Char) : Prop := ch = ':' ∨ ch = '\n'

/-- What follows a scalar is no blank and no comment. -/
theorem skipBlanks_of_follows {ch : Char} (hch : Follows ch) (hrest : c.rest = ch :: rest) :
    c.skipBlanks true {} = some ({}, c) := by
  have other (d : Char) (tail : List Char) (hd : ¬ Follows d) : c.rest ≠ d :: tail := by
    rw [hrest]
    rintro ⟨⟩
    exact hd hch
  rw [Cursor.skipBlanks]
  split
  · next tail h => exact absurd h (other ' ' tail (by simp [Follows]))
  · next tail h => exact absurd h (other '\t' tail (by simp [Follows]))
  · next tail h => exact absurd h (other '#' tail (by simp [Follows]))
  · rfl

/-- What follows a scalar may follow a quoted one on the line where it began. -/
theorem mayEndAt_of_follows {ch : Char} (hch : Follows ch) (hrest : c.rest = ch :: rest) :
    mayEndAt false c.line c = true := by
  unfold mayEndAt
  rw [Cursor.next?, hrest]
  rcases hch with rfl | rfl <;> simp [isBreak]

/-- A text between double quotes is read where the `:` of a key or the end of the line follows. -/
theorem read_doubleQuoted {text : String} {ch : Char} (hindent : indent ≤ c.column + 1)
    (hrest : c.rest = (doubleQuoted text).toList ++ ch :: rest) (hch : Follows ch) :
    read false false indent c = some (text.toList, c.skip (doubleQuoted text).toList.length) := by
  have hinside : Inside indent (c.skip 1) := by
    have hcolumn : (c.skip 1).column = c.column + 1 := rfl
    exact ⟨by omega, by omega, Bool.and_false _⟩
  have hbody : (c.skip 1).rest = text.toList.flatMap escapedChar ++ '"' :: (ch :: rest) := by
    rw [Cursor.rest_skip, hrest, toList_doubleQuoted]
    simp
  have hlength : 1 + ((text.toList.flatMap escapedChar).length + 1) =
      (doubleQuoted text).toList.length := by
    rw [toList_doubleQuoted, List.length_append, List.length_cons, List.length_singleton]
    omega
  have hbehind : (c.skip (doubleQuoted text).toList.length).rest = ch :: rest := by
    rw [Cursor.rest_skip, hrest, List.drop_left]
  rw [read, body_doubleQuoted hinside hbody rfl, Cursor.skip_skip, hlength]
  generalize (doubleQuoted text).toList.length = n at hbehind ⊢
  have hline : c.line = (c.skip n).line := rfl
  simp only [bind, Option.bind, skipBlanks_of_follows hch hbehind]
  rw [hline, if_pos (mayEndAt_of_follows hch hbehind), Gap.text_empty, List.nil_append]

end Yaml.Quoted

end QueryBook
