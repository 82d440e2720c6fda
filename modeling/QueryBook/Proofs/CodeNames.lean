import QueryBook.Accessor.Code
import QueryBook.Proofs.Identifiers

/-!
# Names in code

A reader of code finds the words outside its string literals, but for those that a dot stands before,
which are looked up in what is before the dot. Words that are no keywords, no numbers and not the
blank are names. What a text says can be put together from its parts, if these do not end within a
word or a literal.
-/

namespace QueryBook.Code

/-! ## The reader -/

/-- A character of words: a letter or a digit, an underscore, or anything that is not ASCII. -/
def isWordChar (c : Char) : Bool := c.isAlphanum || c = '_' || decide (128 ≤ c.toNat)

/-- Where a reader of code is. -/
inductive Place where
  /-- Between words. -/
  | code
  /-- In a word, with what was read of it. -/
  | word (read : List Char)
  /-- Behind a dot, and in the word behind that. -/
  | selector
  /-- In a raw string. -/
  | raw
  /-- In a string in double quotes. -/
  | quoted
  /-- In such a string, behind a backslash. -/
  | escape
  deriving DecidableEq

namespace Place

/-- Where a reader is behind a character that does not go on with a word. -/
def behind (c : Char) : Place :=
  if c = backquote then .raw
  else if c = '"' then .quoted
  else if c = '.' then .selector
  else if isWordChar c then .word [c]
  else .code

/-- Where a reader is behind the next character. -/
def step : Place → Char → Place
  | .code, c => behind c
  | .word read, c => if isWordChar c then .word (read ++ [c]) else behind c
  | .selector, c => if isWordChar c then .selector else behind c
  | .raw, c => if c = backquote then .code else .raw
  | .quoted, c => if c = '"' then .code else if c = '\\' then .escape else .quoted
  | .escape, _ => .quoted

/-- Where a reader is behind a text. -/
def steps (place : Place) (text : List Char) : Place := text.foldl step place

/-- The word that ends before a character. -/
def ended : Place → Char → List String
  | .word read, c => if isWordChar c then [] else [String.ofList read]
  | _, _ => []

/-- The words that end in a text. -/
def words (place : Place) : List Char → List String
  | [] => []
  | c :: rest => ended place c ++ words (place.step c) rest

end Place

/-- Whether a word is a name: it begins with something else than a digit, and is no keyword and not the
blank. -/
def isName (word : String) : Bool :=
  !Identifier.keywords.contains word && word != "_" &&
    word.toList.head?.any fun c => !c.isDigit

/-- The names that code refers to; it ends with its last line. -/
def names (code : String) : List String :=
  (Place.words .code (code.toList ++ ['\n'])).filter isName

/-! ## Texts in parts -/

theorem words_append (place : Place) (before after : List Char) :
    place.words (before ++ after) = place.words before ++ (place.steps before).words after := by
  induction before generalizing place with
  | nil => rfl
  | cons c before ih =>
    rw [List.cons_append, Place.words, Place.words, ih, List.append_assoc]
    rfl

/-- A text leads a reader from one place to another, past these words. -/
structure Leads (place : Place) (text : List Char) (place' : Place) (words : List String) : Prop where
  steps_eq : place.steps text = place'
  words_eq : place.words text = words

instance (place : Place) (text : List Char) (place' : Place) (words : List String) :
    Decidable (Leads place text place' words) :=
  decidable_of_iff (place.steps text = place' ∧ place.words text = words)
    ⟨fun h => ⟨h.1, h.2⟩, fun h => ⟨h.1, h.2⟩⟩

variable {place place' place'' : Place} {text before after : List Char} {ws ws' : List String}

theorem Leads.append (h : Leads place before place' ws) (h' : Leads place' after place'' ws') :
    Leads place (before ++ after) place'' (ws ++ ws') := by
  refine ⟨?_, ?_⟩
  · rw [Place.steps, List.foldl_append, ← Place.steps, ← Place.steps, h.steps_eq, h'.steps_eq]
  · rw [words_append, h.words_eq, h.steps_eq, h'.words_eq]

theorem Leads.cons {c : Char} (hstep : place.step c = place') (hended : place.ended c = [])
    (h : Leads place' text place'' ws) : Leads place (c :: text) place'' ws := by
  have hfirst : Leads place [c] place' [] := ⟨hstep, by rw [Place.words, hended]; rfl⟩
  exact hfirst.append h

/-- The names of code that begins and ends outside words and literals are among its words. -/
theorem mem_names_iff {code : String} {name : String} (h : Leads .code code.toList .code ws) :
    name ∈ names code ↔ name ∈ ws ∧ isName name = true := by
  have hend : Leads .code ['\n'] .code [] := by decide
  rw [names, (h.append hend).words_eq, List.append_nil, List.mem_filter]

theorem leads_lines_append {ls ls' : List String} (h : Leads place (lines ls).toList place' ws)
    (h' : Leads place' (lines ls').toList place'' ws') :
    Leads place (lines (ls ++ ls')).toList place'' (ws ++ ws') := by
  have hlines : lines (ls ++ ls') = lines ls ++ lines ls' := by simp [lines]
  rw [hlines, String.toList_append]
  exact h.append h'

/-! ## Literals -/

/-- The text of a raw string leads to its end, and nothing of it is a word: what interrupts the string
for a backquote leads into a raw string again. -/
theorem leads_raw (text : List Char) : Leads .raw (text.flatMap rawChar) .raw [] := by
  have hchar (c : Char) : Leads .raw (rawChar c) .raw [] := by
    by_cases hc : c = backquote
    · rw [hc]
      decide
    · rw [rawChar, if_neg hc]
      exact ⟨if_neg hc, rfl⟩
  induction text with
  | nil => exact ⟨rfl, rfl⟩
  | cons c text ih =>
    rw [List.flatMap_cons]
    exact (hchar c).append ih

/-- A raw string has no words, whatever its text. -/
theorem leads_rawString (text : String) : Leads .code (rawString text).toList .code [] := by
  have hclose : Leads .raw [backquote] .code [] := by decide
  rw [rawString, String.toList_ofList]
  exact Leads.cons rfl rfl ((leads_raw text.toList).append hclose)

/-! ## Words -/

/-- Whether a text is made of characters of words. -/
def IsWord (text : List Char) : Prop := ∀ c ∈ text, isWordChar c = true

instance (text : List Char) : Decidable (IsWord text) := List.decidableBAll _ _

/-- Characters of words are read into the word under way. -/
theorem leads_word (read : List Char) (h : IsWord text) :
    Leads (.word read) text (.word (read ++ text)) [] := by
  induction text generalizing read with
  | nil =>
    rw [List.append_nil]
    exact ⟨rfl, rfl⟩
  | cons c text ih =>
    obtain ⟨hc, htext⟩ := List.forall_mem_cons.mp h
    have hrest := ih (read ++ [c]) htext
    rw [List.append_assoc, List.singleton_append] at hrest
    exact Leads.cons (if_pos hc) (if_pos hc) hrest

/-- A word behind a dot is passed over. -/
theorem leads_selector (h : IsWord text) : Leads .selector text .selector [] := by
  induction text with
  | nil => exact ⟨rfl, rfl⟩
  | cons c text ih =>
    obtain ⟨hc, htext⟩ := List.forall_mem_cons.mp h
    exact Leads.cons (if_pos hc) rfl (ih htext)

/-- A word at the end of a line is read as one. -/
theorem leads_word_feed (h : IsWord text) (hne : text ≠ []) :
    Leads .code (text ++ ['\n']) .code [String.ofList text] := by
  cases text with
  | nil => exact absurd rfl hne
  | cons c text =>
    obtain ⟨hc, htext⟩ := List.forall_mem_cons.mp h
    have hne {d : Char} (hd : isWordChar d = false) : c ≠ d := by
      rintro rfl
      rw [hd] at hc
      cases hc
    have hstep : Place.step .code c = .word [c] := by
      show Place.behind c = .word [c]
      rw [Place.behind, if_neg (hne (by decide)), if_neg (hne (by decide)),
        if_neg (hne (by decide)), if_pos hc]
    have hfeed : Leads (.word (c :: text)) ['\n'] .code [String.ofList (c :: text)] := ⟨rfl, rfl⟩
    exact Leads.cons hstep rfl ((leads_word [c] htext).append hfeed)

/-! ## Identifiers -/

/-- Letters and digits are characters of words. -/
theorem isWordChar_of_isAlphanumeric {c : Char} (h : Text.isAlphanumeric c = true) :
    isWordChar c = true := by
  have hascii : ∀ n < 128, Text.isAlphanumeric (Char.ofNat n) = true →
      isWordChar (Char.ofNat n) = true := by
    decide +kernel
  by_cases hc : c.toNat < 128
  · have := hascii c.toNat hc
    rw [Char.ofNat_toNat] at this
    exact this h
  · simp [isWordChar, Nat.not_lt.mp hc]

/-- The underscore is a character of words. -/
theorem isWord_underscore : IsWord ['_'] := by
  decide

/-- Identifiers are words. -/
theorem isWord_ofName (name : String) (exported : Bool) :
    IsWord (Identifier.ofName name exported).toList := by
  obtain ⟨before, hchars, hbefore⟩ := Identifier.exists_toList_ofName name exported
  rw [hchars]
  refine List.forall_mem_append.mpr ⟨?_, fun c hc => ?_⟩
  · rcases hbefore with rfl | ⟨rfl, -⟩
    · exact isWord_underscore
    · nofun
  · rcases Identifier.mem_or_of_mem_plain hc with ⟨-, hc⟩ | ⟨hc | hc, -⟩
    · exact isWordChar_of_isAlphanumeric hc
    · have hletter : c.isAlphanum = true := by
        show ((c.isUpper || c.isLower) || c.isDigit) = true
        rw [hc, Bool.true_or, Bool.true_or]
      simp [isWordChar, hletter]
    · simp [isWordChar, hc]

end QueryBook.Code
