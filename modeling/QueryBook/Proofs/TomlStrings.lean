import QueryBook.Toml.Scalar
import QueryBook.Toml.Writer
import Mathlib.Data.List.TakeWhile

/-!
# Written TOML strings

A string is written in one of four forms, and every form is read back: what is escaped is read as
one character, and of quotes in a row so few stand unescaped that the reader does not take them for
the end before the end comes. Quotes directly before the end belong to the string.
-/

namespace QueryBook.Toml

/-! ## Escapes -/

/-- What need not be escaped may stand in a string, but for the line feed. -/
theorem isText_of_not_needsEscape {c : Char} (h : needsEscape c = false) (hfeed : c ≠ '\n') :
    isText c = true := by
  simp only [needsEscape, Bool.and_eq_false_iff, Bool.or_eq_false_iff,
    decide_eq_false_iff_not] at h
  rw [isText, Bool.or_eq_true, Bool.and_eq_true, decide_eq_true_eq, decide_eq_true_eq,
    decide_eq_true_eq]
  grind

/-- A control is read back from its code point. -/
theorem codePoint?_hexDigits {c : Char} (hc : c.toNat < 128) (rest : List Char) :
    codePoint? 4 (hexDigits c.toNat ++ rest) = some (c, rest) := by
  have hdigits : ∀ n < 128, (hexDigits n).length = 4 ∧
      (hexDigits n).foldlM (fun n c => (hexDigit? c).map (n * 16 + ·)) 0 = some n := by
    decide +kernel
  obtain ⟨hlength, hvalue⟩ := hdigits _ hc
  have htake : (hexDigits c.toNat ++ rest).take 4 = hexDigits c.toNat := List.take_left' hlength
  have hdrop : (hexDigits c.toNat ++ rest).drop 4 = rest := List.drop_left' hlength
  have hvalid : c.toNat.isValidChar := c.valid
  simp only [codePoint?, htake, hdrop, hvalue]
  simp [hlength, hvalid]

/-- How a character stands in a basic string, of several lines or not. -/
inductive Escaping (multiline : Bool) (allowed run : Nat) (c : Char) : List Char → Prop where
  /-- A quote that may stand unescaped. -/
  | quote : c = '"' → run < allowed → Escaping multiline allowed run c ['"']
  /-- A line feed that may. -/
  | feed : c = '\n' → multiline = true → Escaping multiline allowed run c ['\n']
  /-- A character that stands for itself. -/
  | plain : isText c = true → c ≠ '"' → c ≠ '\\' → Escaping multiline allowed run c [c]
  /-- An escape, which is none that takes blanks with it. -/
  | escape (first : Char) (more : List Char) :
      (∀ rest, escape? (first :: more ++ rest) = some (c, rest)) →
      first ∉ [' ', '\t', '\n', '\r'] → Escaping multiline allowed run c ('\\' :: first :: more)

theorem escaping_escaped (multiline : Bool) (allowed run : Nat) (c : Char) :
    Escaping multiline allowed run c (escaped multiline allowed run c) := by
  unfold escaped
  split_ifs with hslash hquote hrun hfeed hmultiline hb ht hf hr hcontrol
  · exact .escape '\\' [] (fun rest => by rw [hslash]; rfl) (by decide)
  · exact .quote hquote hrun
  · exact .escape '"' [] (fun rest => by rw [hquote]; rfl) (by decide)
  · exact .feed hfeed hmultiline
  · exact .escape 'n' [] (fun rest => by rw [hfeed]; rfl) (by decide)
  · exact .escape 'b' [] (fun rest => by rw [hb]; rfl) (by decide)
  · exact .escape 't' [] (fun rest => by rw [ht]; rfl) (by decide)
  · exact .escape 'f' [] (fun rest => by rw [hf]; rfl) (by decide)
  · exact .escape 'r' [] (fun rest => by rw [hr]; rfl) (by decide)
  · have hc : c.toNat < 128 := by
      rw [Bool.or_eq_true, decide_eq_true_eq, decide_eq_true_eq] at hcontrol
      omega
    exact .escape 'u' (hexDigits c.toNat) (codePoint?_hexDigits hc) (by decide)
  · refine .plain (isText_of_not_needsEscape ?_ hfeed) hquote hslash
    rw [needsEscape, Bool.not_eq_true] at *
    simp [hcontrol]

variable {multiline : Bool} {allowed run : Nat} {text rest : List Char}

/-- The quotes passed last, behind a character. -/
def runBehind (allowed run : Nat) (c : Char) : Nat :=
  if c = '"' && run < allowed then run + 1 else 0

theorem escapedText_cons (c : Char) :
    escapedText multiline allowed run (c :: text) =
      escaped multiline allowed run c ++
        escapedText multiline allowed (runBehind allowed run c) text := rfl

/-- Escapes make a text no shorter. -/
theorem length_le_escapedText : text.length ≤ (escapedText multiline allowed run text).length := by
  induction text generalizing run with
  | nil => exact Nat.zero_le _
  | cons c text ih =>
    have hpos : 1 ≤ (escaped multiline allowed run c).length := by
      have hc := escaping_escaped multiline allowed run c
      generalize escaped multiline allowed run c = written at hc
      cases hc <;> simp
    have hrest : text.length ≤
      (escapedText multiline allowed (runBehind allowed run c) text).length := ih
    rw [escapedText_cons, List.length_append, List.length_cons]
    omega

/-! ## Strings on one line -/

/-- A basic string is read back; no quote stands unescaped in it. -/
theorem basic?_escapedText {fuel : Nat} (hfuel : text.length < fuel) :
    basic? fuel (escapedText false 0 run text ++ '"' :: rest) = some (text, rest) := by
  induction text generalizing run fuel with
  | nil =>
    obtain ⟨fuel, rfl⟩ := Nat.exists_eq_succ_of_ne_zero (Nat.ne_zero_of_lt hfuel)
    rfl
  | cons c text ih =>
    obtain ⟨fuel, rfl⟩ := Nat.exists_eq_succ_of_ne_zero (Nat.ne_zero_of_lt hfuel)
    have hrest : basic? fuel (escapedText false 0 (runBehind 0 run c) text ++ '"' :: rest) =
        some (text, rest) := ih (by simpa using hfuel)
    have hc := escaping_escaped false 0 run c
    rw [escapedText_cons, List.append_assoc]
    generalize escaped false 0 run c = written at hc
    cases hc with
    | quote _ hrun => cases hrun
    | feed _ h => cases h
    | plain htext hquote hslash => simp [basic?, hquote, hslash, htext, hrest]
    | escape first more hread =>
      rw [List.cons_append, basic?, if_neg (by decide), if_pos rfl, hread]
      simp [hrest]

theorem literal?_append (htext : ∀ c ∈ text, isText c = true ∧ c ≠ '\'') :
    literal? (text ++ '\'' :: rest) = some (text, rest) := by
  induction text with
  | nil => rfl
  | cons c text ih =>
    obtain ⟨hc, hquote⟩ := htext c (List.mem_cons_self ..)
    rw [List.cons_append, literal?, if_neg hquote, if_pos hc,
      ih fun d hd => htext d (List.mem_cons_of_mem _ hd)]
    rfl

/-! ## The end of several lines -/

variable {quote : Char}

/-- Quotes before the end belong to the string, up to two of them. -/
theorem multilineEnd?_replicate {k : Nat} (hk : k ≤ 2) (hrest : rest.head? ≠ some quote) :
    multilineEnd? quote (List.replicate k quote ++ (List.replicate 3 quote ++ rest)) =
      some (List.replicate k quote, rest) := by
  have hrun : (List.replicate (k + 3) quote ++ rest).takeWhile (· = quote) =
      List.replicate (k + 3) quote := by
    rw [List.takeWhile_append_of_pos (by simp)]
    cases rest with
    | nil => simp
    | cons c rest => simp_all
  rw [← List.append_assoc, List.replicate_append_replicate, multilineEnd?, hrun,
    List.length_replicate]
  have hkept : min (k + 3 - 3) 2 = k := by omega
  dsimp only
  rw [if_neg (by omega), hkept, List.drop_left' (by simp)]

/-- Fewer than three quotes are no end. -/
theorem multilineEnd?_eq_none (h : (text.takeWhile (· = quote)).length ≤ 2) :
    multilineEnd? quote text = none := by
  rw [multilineEnd?]
  dsimp only
  rw [if_pos (by omega)]

/-! ## Basic strings of several lines -/

/-- The quotes at the start of an escaped text: either it is nothing but a few of them, or something
else stands before there are too many. -/
theorem quotes_escapedText (text : List Char) (hrun : run ≤ 2) :
    (∃ k, run + k ≤ 2 ∧ text = List.replicate k '"' ∧
        escapedText true 2 run text = List.replicate k '"') ∨
      ∀ behind, ((escapedText true 2 run text ++ behind).takeWhile (· = '"')).length + run ≤ 2 := by
  -- quotes passed before the text count with those it begins with, so the run is generalized
  induction text generalizing run with
  | nil => exact .inl ⟨0, hrun, rfl, rfl⟩
  | cons c text ih =>
    have hc := escaping_escaped true 2 run c
    rw [escapedText_cons]
    generalize hwritten : escaped true 2 run c = written at hc
    cases hc with
    | quote hc hless =>
      have hbehind : runBehind 2 run c = run + 1 := by simp [runBehind, hc, hless]
      have hnext : run + 1 ≤ 2 := hless
      rw [hbehind]
      rcases ih hnext with ⟨k, hk, htext, hescaped⟩ | hfew
      · refine .inl ⟨k + 1, by omega, by rw [hc, htext]; rfl, by rw [hescaped]; rfl⟩
      · refine .inr fun behind => ?_
        have := hfew behind
        simp only [List.cons_append, List.nil_append, List.takeWhile_cons, decide_true, if_true,
          List.length_cons]
        omega
    | feed => exact .inr fun behind => by simpa using hrun
    | plain _ hquote => exact .inr fun behind => by simpa [hquote] using hrun
    | escape => exact .inr fun behind => by simpa using hrun

/-- A character that may stand in a string begins no line break. -/
theorem lineBreak?_of_isText {c : Char} (hc : isText c = true) : lineBreak? (c :: rest) = none := by
  rw [lineBreak?.eq_def]
  split
  · next h =>
    obtain ⟨rfl, -⟩ := List.cons.inj h
    exact absurd hc (by decide)
  · next h =>
    obtain ⟨rfl, -⟩ := List.cons.inj h
    exact absurd hc (by decide)
  · rfl

theorem runBehind_le (allowed run : Nat) (c : Char) : runBehind allowed run c ≤ allowed := by
  unfold runBehind
  split
  · next h =>
    rw [Bool.and_eq_true, decide_eq_true_eq, decide_eq_true_eq] at h
    omega
  · exact Nat.zero_le _

/-- Where the string does not end, a character is read in front of what is read behind it. -/
theorem multilineBasic?_cons {fuel : Nat} {c : Char} {written later : List Char}
    (hc : Escaping true 2 run c written) (hmore : multilineEnd? '"' (written ++ later) = none)
    (hlater : multilineBasic? fuel later = some (text, rest)) :
    multilineBasic? (fuel + 1) (written ++ later) = some (c :: text, rest) := by
  rw [multilineBasic?, hmore]
  cases hc with
  | quote hquote =>
    rw [List.singleton_append, lineBreak?_of_isText (by decide)]
    simp [hlater, hquote, show isText '"' = true by decide]
  | feed hfeed => simp [hlater, lineBreak?, hfeed]
  | plain htext hquote hslash =>
    rw [List.singleton_append, lineBreak?_of_isText htext]
    simp [hlater, hslash, htext]
  | escape first more hread hblank =>
    have hwhite : skipWhite (first :: more ++ later) = first :: more ++ later := by
      rw [List.cons_append, skipWhite, List.dropWhile_cons, if_neg]
      simp_all [isWhite]
    have hbreak : lineBreak? (first :: more ++ later) = none := by
      rw [List.cons_append, lineBreak?.eq_def]
      split <;> simp_all
    rw [List.cons_append, lineBreak?_of_isText (by decide)]
    simp only [if_true, hwhite, hbreak, hread, Option.bind_some, hlater, Option.map_some]

/-- A basic string of several lines is read back. -/
theorem multilineBasic?_escapedText {fuel : Nat} (hfuel : text.length < fuel) (hrun : run ≤ 2)
    (hrest : rest.head? ≠ some '"') :
    multilineBasic? fuel (escapedText true 2 run text ++ (List.replicate 3 '"' ++ rest)) =
      some (text, rest) := by
  induction text generalizing run fuel with
  | nil =>
    obtain ⟨fuel, rfl⟩ := Nat.exists_eq_succ_of_ne_zero (Nat.ne_zero_of_lt hfuel)
    have hend := multilineEnd?_replicate (Nat.zero_le 2) hrest
    rw [List.replicate_zero, List.nil_append] at hend
    rw [escapedText, List.nil_append, multilineBasic?, hend]
  | cons c text ih =>
    obtain ⟨fuel, rfl⟩ := Nat.exists_eq_succ_of_ne_zero (Nat.ne_zero_of_lt hfuel)
    -- if only quotes are left, the end takes them in; otherwise the end is not here
    obtain ⟨k, hk, htext, hescaped⟩ | hfew := quotes_escapedText (c :: text) hrun
    · rw [hescaped, multilineBasic?, multilineEnd?_replicate (by omega) hrest, htext]
    · have hmore := multilineEnd?_eq_none ((Nat.le_add_right ..).trans
        (hfew (List.replicate 3 '"' ++ rest)))
      rw [escapedText_cons, List.append_assoc] at hmore ⊢
      exact multilineBasic?_cons (escaping_escaped true 2 run c) hmore
        (ih (by simpa using hfuel) (runBehind_le 2 run c))

/-! ## Literal strings of several lines -/

/-- The quotes at the start of a text without too many in a row: either it is nothing but a few of
them, or something else stands before there are too many. -/
theorem quotes_of_longestRun (text : List Char) (hrun : longestRun quote run text ≤ 2) :
    (∃ k, run + k ≤ 2 ∧ text = List.replicate k quote) ∨
      ∀ behind, ((text ++ behind).takeWhile (· = quote)).length + run ≤ 2 := by
  induction text generalizing run with
  | nil => exact .inl ⟨0, hrun, rfl⟩
  | cons c text ih =>
    rw [longestRun] at hrun
    split at hrun
    · next hc =>
      rcases ih hrun with ⟨k, hk, htext⟩ | hfew
      · exact .inl ⟨k + 1, by omega, by rw [hc, htext]; rfl⟩
      · refine .inr fun behind => ?_
        have := hfew behind
        simp only [hc, List.cons_append, List.takeWhile_cons, decide_true, if_true,
          List.length_cons]
        omega
    · next hc =>
      refine .inr fun behind => ?_
      simpa [hc] using (Nat.le_max_left ..).trans hrun

theorem multilineLiteral?_append {fuel : Nat} (hfuel : text.length < fuel)
    (htext : ∀ c ∈ text, needsEscape c = false) (hrun : longestRun '\'' run text ≤ 2)
    (hrest : rest.head? ≠ some '\'') :
    multilineLiteral? fuel (text ++ (List.replicate 3 '\'' ++ rest)) = some (text, rest) := by
  induction text generalizing run fuel with
  | nil =>
    obtain ⟨fuel, rfl⟩ := Nat.exists_eq_succ_of_ne_zero (Nat.ne_zero_of_lt hfuel)
    have hend := multilineEnd?_replicate (Nat.zero_le 2) hrest
    rw [List.replicate_zero, List.nil_append] at hend
    rw [List.nil_append, multilineLiteral?, hend]
  | cons c text ih =>
    obtain ⟨fuel, rfl⟩ := Nat.exists_eq_succ_of_ne_zero (Nat.ne_zero_of_lt hfuel)
    obtain ⟨k, hk, heq⟩ | hfew := quotes_of_longestRun (c :: text) hrun
    · rw [heq, multilineLiteral?, multilineEnd?_replicate (by omega) hrest]
    · have hmore := multilineEnd?_eq_none ((Nat.le_add_right ..).trans
        (hfew (List.replicate 3 '\'' ++ rest)))
      -- which run is under way does not matter behind the first character
      have hnext : ∃ run', longestRun '\'' run' text ≤ 2 := by
        rw [longestRun] at hrun
        split at hrun
        · exact ⟨_, hrun⟩
        · exact ⟨_, (Nat.le_max_right ..).trans hrun⟩
      obtain ⟨run', hnext⟩ := hnext
      have hlater :=
        ih (by simpa using hfuel) (fun d hd => htext d (List.mem_cons_of_mem _ hd)) hnext
      rw [multilineLiteral?, hmore, List.cons_append]
      by_cases hfeed : c = '\n'
      · rw [hfeed, lineBreak?]
        dsimp only
        rw [hlater]
        rfl
      · have hc := isText_of_not_needsEscape (htext c (List.mem_cons_self ..)) hfeed
        rw [lineBreak?_of_isText hc]
        dsimp only
        rw [if_pos hc, hlater]
        rfl

/-! ## Forms -/

theorem le_longestRun (text : List Char) (run : Nat) : run ≤ longestRun quote run text := by
  induction text generalizing run with
  | nil => exact Nat.le_refl run
  | cons c text ih =>
    rw [longestRun]
    split
    · exact (Nat.le_succ run).trans (ih (run + 1))
    · exact Nat.le_max_left ..

/-- Where no run of a character is long, there is none of it. -/
theorem not_mem_of_longestRun_eq_zero (h : longestRun quote run text = 0) : quote ∉ text := by
  induction text generalizing run with
  | nil => exact List.not_mem_nil
  | cons c text ih =>
    rw [longestRun] at h
    split at h
    · have hpast : run + 1 ≤ longestRun quote (run + 1) text := le_longestRun text (run + 1)
      omega
    · next hc =>
      have hlater : longestRun quote 0 text = 0 :=
        Nat.eq_zero_of_le_zero ((Nat.le_max_right run _).trans_eq h)
      exact List.not_mem_cons_of_ne_of_not_mem (Ne.symm hc) (ih hlater)

/-- A text between apostrophes stands there as it is, and it is not empty. -/
theorem of_formOf_literal (h : formOf text = .literal) :
    (∀ c ∈ text, isText c = true ∧ c ≠ '\'') ∧ text ≠ [] := by
  have hne : text ≠ [] := by
    rintro rfl
    cases h
  unfold formOf at h
  dsimp only at h
  split at h
  · cases h
  split at h
  · next hc =>
    simp only [Bool.and_eq_true, Bool.not_eq_true', List.any_eq_false, decide_eq_true_eq,
      List.contains_eq_mem, decide_eq_false_iff_not, Bool.not_eq_true] at hc
    obtain ⟨⟨hcontrol, hrun⟩, hbreak⟩ := hc
    refine ⟨fun c hc => ⟨isText_of_not_needsEscape (hcontrol c hc) ?_, ?_⟩, hne⟩
    · rintro rfl
      exact hbreak hc
    · rintro rfl
      exact not_mem_of_longestRun_eq_zero hrun hc
  · split_ifs at h

/-- A text between three apostrophes stands there as it is; there are few in a row. -/
theorem of_formOf_multilineLiteral (h : formOf text = .multilineLiteral) :
    (∀ c ∈ text, needsEscape c = false) ∧ longestRun '\'' 0 text ≤ 2 := by
  unfold formOf at h
  dsimp only at h
  split_ifs at h with _ _ _ hc
  simpa only [Bool.and_eq_true, Bool.not_eq_true', List.any_eq_false, decide_eq_true_eq,
    Bool.not_eq_true] using hc

/-! ## Strings -/

/-- Whether a text begins with no quote. -/
def StartsUnquoted (rest : List Char) : Prop := rest.head? ≠ some '"' ∧ rest.head? ≠ some '\''

/-- Behind one quote, unless it is the first of three, there is a basic string. -/
theorem string?_basic (h : ∀ behind, text ≠ '"' :: '"' :: behind) :
    string? ('"' :: text) =
      (basic? (text.length + 2) text).map fun (value, rest) => (String.ofList value, rest) := by
  unfold string?
  dsimp only
  split
  · next heq => exact absurd (List.cons.inj heq).2 (h _)
  · next heq => cases heq
  · next heq => cases heq; rfl
  · next heq => cases heq
  · next hno _ => exact absurd rfl (hno text)

/-- Behind one apostrophe, unless it is the first of three, there is a literal string. -/
theorem string?_literal (h : ∀ behind, text ≠ '\'' :: '\'' :: behind) :
    string? ('\'' :: text) =
      (literal? text).map fun (value, rest) => (String.ofList value, rest) := by
  unfold string?
  dsimp only
  split
  · next heq => cases heq
  · next heq => exact absurd (List.cons.inj heq).2 (h _)
  · next heq => cases heq
  · next heq => cases heq; rfl
  · next hno => exact absurd rfl (hno text)

/-- What is escaped on one line begins with no quote. -/
theorem head?_escapedText_ne (c : Char) (behind : List Char) :
    (escapedText false 0 run (c :: text) ++ behind).head? ≠ some '"' := by
  have hc := escaping_escaped false 0 run c
  rw [escapedText_cons]
  generalize escaped false 0 run c = written at hc
  cases hc with
  | quote _ hrun => cases hrun
  | feed _ h => cases h
  | plain _ hquote => simpa using hquote
  | escape => simp

/-- Behind three quotes there is a basic string of several lines. -/
theorem string?_multilineBasic (text : List Char) :
    string? (List.replicate 3 '"' ++ text) =
      (multilineBasic? (text.length + 4) (skipFirstBreak text)).map fun (value, rest) =>
        (String.ofList value, rest) := rfl

/-- Behind three apostrophes there is a literal string of several lines. -/
theorem string?_multilineLiteral (text : List Char) :
    string? (List.replicate 3 '\'' ++ text) =
      (multilineLiteral? (text.length + 4) (skipFirstBreak text)).map fun (value, rest) =>
        (String.ofList value, rest) := rfl

/-- What is escaped begins with no line break, unless it holds one. -/
theorem lineBreak?_escapedText (hbreak : '\n' ∉ text) :
    lineBreak? (escapedText true 2 run text ++ (List.replicate 3 '"' ++ rest)) = none := by
  cases text with
  | nil => rfl
  | cons c text =>
    have hc := escaping_escaped true 2 run c
    rw [escapedText_cons, List.append_assoc]
    generalize escaped true 2 run c = written at hc
    cases hc with
    | quote => exact lineBreak?_of_isText (by decide)
    | feed hfeed => exact absurd (hfeed ▸ List.mem_cons_self ..) hbreak
    | plain htext => exact lineBreak?_of_isText htext
    | escape => exact lineBreak?_of_isText (by decide)

/-- What needs no escapes begins with no line break, unless it holds one. -/
theorem lineBreak?_append (htext : ∀ c ∈ text, needsEscape c = false) (hbreak : '\n' ∉ text) :
    lineBreak? (text ++ (List.replicate 3 '\'' ++ rest)) = none := by
  cases text with
  | nil => rfl
  | cons c text =>
    have hfeed : c ≠ '\n' := fun h => hbreak (h ▸ List.mem_cons_self ..)
    exact lineBreak?_of_isText (isText_of_not_needsEscape (htext c (List.mem_cons_self ..)) hfeed)

/-- The line break that several lines begin with is no part of them, and no other is left out. -/
theorem skipFirstBreak_append {start behind : List Char}
    (hstart : start = if text.contains '\n' then ['\n'] else [])
    (hbehind : '\n' ∉ text → lineBreak? behind = none) :
    skipFirstBreak (start ++ behind) = behind := by
  by_cases hn : '\n' ∈ text
  · simp [hstart, hn, skipFirstBreak, lineBreak?]
  · simp [hstart, hn, skipFirstBreak, hbehind hn]

/-- A string in quotes is read back. -/
theorem string?_quoted (hrest : StartsUnquoted rest) :
    string? ('"' :: (escapedText false 0 0 text ++ '"' :: rest)) =
      some (String.ofList text, rest) := by
  -- the quotes of the empty string are not the first two of three
  have hthree (behind : List Char) :
      escapedText false 0 0 text ++ '"' :: rest ≠ '"' :: '"' :: behind := by
    intro heq
    cases text with
    | nil => exact hrest.1 (by rw [(List.cons.inj heq).2]; rfl)
    | cons c text => exact head?_escapedText_ne c ('"' :: rest) (by rw [heq]; rfl)
  have hlength : text.length ≤ (escapedText false 0 0 text).length := length_le_escapedText
  rw [string?_basic hthree, basic?_escapedText (by rw [List.length_append]; omega)]
  rfl

/-- A string between apostrophes is read back, which is never the empty one. -/
theorem string?_between (htext : ∀ c ∈ text, isText c = true ∧ c ≠ '\'') (hne : text ≠ []) :
    string? ('\'' :: (text ++ '\'' :: rest)) = some (String.ofList text, rest) := by
  have hthree (behind : List Char) : text ++ '\'' :: rest ≠ '\'' :: '\'' :: behind := by
    obtain ⟨c, text, rfl⟩ := List.exists_cons_of_ne_nil hne
    exact fun heq => (htext c (List.mem_cons_self ..)).2 (List.cons.inj heq).1
  rw [string?_literal hthree, literal?_append htext]
  rfl

/-- A string of several lines in quotes is read back. -/
theorem string?_quotedLines {start : List Char} (hrest : StartsUnquoted rest)
    (hstart : start = if text.contains '\n' then ['\n'] else []) :
    string? (List.replicate 3 '"' ++
      (start ++ (escapedText true 2 0 text ++ (List.replicate 3 '"' ++ rest)))) =
        some (String.ofList text, rest) := by
  have hlength : text.length ≤ (escapedText true 2 0 text).length := length_le_escapedText
  rw [string?_multilineBasic, skipFirstBreak_append hstart lineBreak?_escapedText,
    multilineBasic?_escapedText ?_ (Nat.zero_le 2) hrest.1]
  · rfl
  · rw [List.length_append, List.length_append]
    omega

/-- A string of several lines between apostrophes is read back. -/
theorem string?_betweenLines {start : List Char} (hrest : StartsUnquoted rest)
    (hstart : start = if text.contains '\n' then ['\n'] else [])
    (htext : ∀ c ∈ text, needsEscape c = false) (hrun : longestRun '\'' 0 text ≤ 2) :
    string? (List.replicate 3 '\'' ++ (start ++ (text ++ (List.replicate 3 '\'' ++ rest)))) =
      some (String.ofList text, rest) := by
  rw [string?_multilineLiteral, skipFirstBreak_append hstart (lineBreak?_append htext),
    multilineLiteral?_append ?_ htext hrun hrest.2]
  · rfl
  · rw [List.length_append, List.length_append]
    omega

/-- **Written strings are read back**, in whatever form they are written, with what follows them. -/
theorem string?_writeString (value : String) (hrest : StartsUnquoted rest) :
    string? ((writeString value).toList ++ rest) = some (value, rest) := by
  obtain ⟨text, rfl⟩ : ∃ text, value = String.ofList text := ⟨_, String.ofList_toList.symm⟩
  unfold writeString
  rw [String.toList_ofList, String.toList_ofList]
  cases hform : formOf text with
  | basic =>
    simpa only [List.cons_append, List.append_assoc, List.nil_append] using string?_quoted hrest
  | literal =>
    obtain ⟨htext, hne⟩ := of_formOf_literal hform
    simpa only [List.cons_append, List.append_assoc, List.nil_append] using
      string?_between htext hne
  | multilineBasic =>
    dsimp only
    rw [List.append_assoc, List.append_assoc, List.append_assoc]
    exact string?_quotedLines hrest rfl
  | multilineLiteral =>
    obtain ⟨htext, hrun⟩ := of_formOf_multilineLiteral hform
    dsimp only
    rw [List.append_assoc, List.append_assoc, List.append_assoc]
    exact string?_betweenLines hrest rfl htext hrun

end QueryBook.Toml
