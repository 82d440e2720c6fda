import QueryBook.Proofs.IdentifierWords

/-!
# Identifiers

Every name gets an identifier that begins with a letter or an underscore and, where it is not
exported, is no keyword. Initials that are raised can become more than one character, and marks among
these are neither letters nor digits. Where no raised initial of a name has such marks, its
identifier is made of letters and digits behind at most one underscore, and is its own identifier;
where one has, neither is so.
-/

namespace QueryBook

namespace Identifier

variable {exported : Bool} {name text : List Char}

/-! ## Letters and digits -/

/-- The words of a name whose initials are raised: all words of an exported name, else all but the
first one. -/
def raisedWords (exported : Bool) (name : List Char) : List (List Char) :=
  if exported then words (body name) else (words (body name)).tail

/-- Whether the raised initials of a name are made of letters and digits in upper case. -/
def HasPlainInitials (exported : Bool) (name : String) : Prop :=
  ∀ w ∈ raisedWords exported name.toList, ∀ c ∈ w.head?, ∀ d ∈ Text.upperChar c,
    Text.isAlphanumeric d = true

instance (exported : Bool) (name : String) : Decidable (HasPlainInitials exported name) :=
  decidable_of_iff (∀ w ∈ raisedWords exported name.toList,
      (w.head?.all fun c => (Text.upperChar c).all Text.isAlphanumeric) = true) <|
    forall₂_congr fun w _ => by cases w.head? <;> simp

/-- Words are made of letters and digits. -/
theorem isAlphanumeric_of_mem_words (name : List Char) :
    ∀ w ∈ words name, ∀ c ∈ w, Text.isAlphanumeric c = true := by
  induction name with
  | nil => simp [words]
  | cons c name ih =>
    cases hc : Text.isAlphanumeric c with
    | true =>
      obtain ⟨-, word, rest, hwords, -⟩ := joinWords_eq name
      rw [words_cons_of_alphanumeric hc, hwords, List.modifyHead_cons]
      rw [hwords, List.forall_mem_cons] at ih
      exact List.forall_mem_cons.mpr ⟨List.forall_mem_cons.mpr ⟨hc, ih.1⟩, ih.2⟩
    | false =>
      rw [words_cons_of_not_alphanumeric hc]
      exact List.forall_mem_cons.mpr ⟨nofun, ih⟩

/-- A word with its initial raised is made of letters and digits exactly if the raised initial is. -/
theorem forall_capitalized_iff {word : List Char} (h : ∀ c ∈ word, Text.isAlphanumeric c = true) :
    (∀ d ∈ capitalized word, Text.isAlphanumeric d = true) ↔
      ∀ c ∈ word.head?, ∀ d ∈ Text.upperChar c, Text.isAlphanumeric d = true := by
  cases word with
  | nil => simp [capitalized]
  | cons c rest =>
    rw [List.forall_mem_cons] at h
    simp only [capitalized, List.forall_mem_append, List.head?_cons, Option.mem_def,
      Option.some.injEq, forall_eq']
    exact and_iff_left h.2

/-- So are the words run together exactly if all raised initials are. -/
theorem forall_joinWords_iff (exported : Bool) (name : String) :
    (∀ d ∈ joinWords exported (body name.toList), Text.isAlphanumeric d = true) ↔
      HasPlainInitials exported name := by
  have plain := isAlphanumeric_of_mem_words (body name.toList)
  obtain ⟨upper, word, rest, hwords, within⟩ := joinWords_eq (body name.toList)
  -- The first word stays as it is where the name is not exported.
  have words_iff {ws : List (List Char)} (h : ws ⊆ words (body name.toList)) :
      (∀ d ∈ ws.flatMap capitalized, Text.isAlphanumeric d = true) ↔
        ∀ w ∈ ws, ∀ c ∈ w.head?, ∀ d ∈ Text.upperChar c, Text.isAlphanumeric d = true := by
    rw [List.forall_mem_flatMap]
    exact forall₂_congr fun w hw => forall_capitalized_iff (plain w (h hw))
  unfold HasPlainInitials raisedWords
  cases exported with
  | true =>
    rw [upper, capitals, if_pos rfl]
    exact words_iff (List.Subset.refl _)
  | false =>
    rw [within, if_neg Bool.false_ne_true, hwords, List.tail_cons, List.forall_mem_append]
    rw [hwords, List.forall_mem_cons] at plain
    rw [and_iff_right plain.1]
    exact words_iff (hwords ▸ List.subset_cons_self _ _)

/-! ## Reading an identifier as a name -/

/-- Words run together begin with a letter or a digit, which is in upper case if it was to be. -/
theorem head?_joinWords (upper : Bool) (text : List Char) : ∀ c ∈ (joinWords upper text).head?,
    Text.isAlphanumeric c = true ∧ (upper = true → Text.upperChar c = [c]) := by
  induction text generalizing upper with
  | nil =>
    intro c hc
    cases hc
  | cons c text ih =>
    rw [joinWords]
    split
    · next hc =>
      cases upper with
      | false =>
        rintro d ⟨⟩
        exact ⟨hc, fun h => absurd h Bool.false_ne_true⟩
      | true =>
        obtain ⟨initial, more, hupper, hclass, hstays⟩ := Text.exists_upperChar c
        rw [cased, if_pos rfl, hupper]
        rintro d ⟨⟩
        refine ⟨?_, fun _ => hstays⟩
        rcases hclass with hletter | rfl
        · rw [Text.isAlphanumeric, hletter, Bool.true_or]
        · exact hc
    · exact fun d hd => ⟨(ih true d hd).1, fun _ => (ih true d hd).2 rfl⟩

/-- A name that begins with a letter does so when its words are run together. -/
theorem startsWithLetter_joinWords (exported : Bool) (h : startsWithLetter name = true) :
    startsWithLetter (joinWords exported name) = true := by
  cases name with
  | nil => cases h
  | cons c rest =>
    have hc : Text.isAlphabetic c = true := h
    rw [joinWords, if_pos (by rw [Text.isAlphanumeric, hc, Bool.true_or])]
    cases exported with
    | false => exact h
    | true =>
      obtain ⟨initial, more, hupper, hclass, -⟩ := Text.exists_upperChar c
      rw [cased, if_pos rfl, hupper]
      rcases hclass with hletter | rfl
      · exact hletter
      · exact hc

/-- A letter or a digit that is its own upper-case form stays when words are run together. -/
theorem mem_joinWords {upper : Bool} {c : Char} (hc : Text.isAlphanumeric c = true)
    (hupper : Text.upperChar c = [c]) (h : c ∈ text) : c ∈ joinWords upper text := by
  induction text generalizing upper with
  | nil => cases h
  | cons d text ih =>
    rw [joinWords]
    rcases List.mem_cons.mp h with rfl | h
    · have hcased : c ∈ cased upper c := by cases upper <;> simp [cased, hupper]
      rw [if_pos hc]
      exact List.mem_append_left _ hcased
    · split
      · exact List.mem_append_right _ (ih h)
      · exact ih h

/-- Words run together hold nothing but letters and digits of the text, and what becomes of raised
initials. -/
theorem mem_or_of_mem_joinWords {upper : Bool} {d : Char} (h : d ∈ joinWords upper text) :
    d ∈ text ∧ Text.isAlphanumeric d = true ∨ (d.isUpper = true ∨ 128 ≤ d.toNat) ∧ d ≠ 'İ' := by
  induction text generalizing upper with
  | nil => cases h
  | cons c text ih =>
    rw [joinWords] at h
    split at h
    · next hc =>
      rcases List.mem_append.mp h with h | h
      · have himage : d = c ∨ (d.isUpper = true ∨ 128 ≤ d.toNat) ∧ d ≠ 'İ' := by
          cases upper with
          | true => exact Text.eq_or_of_mem_upperChar h
          | false => exact .inl (List.mem_singleton.mp h)
        refine himage.imp_left fun heq => ?_
        rw [heq]
        exact ⟨List.mem_cons_self, hc⟩
      · exact (ih h).imp_left (.imp_left (List.mem_cons_of_mem c))
    · exact (ih h).imp_left (.imp_left (List.mem_cons_of_mem c))

/-- An initial that is in upper case does not change if it is raised. -/
theorem joinWords_true_eq (h : ∀ c ∈ text.head?, Text.upperChar c = [c]) :
    joinWords true text = joinWords false text := by
  cases text with
  | nil => rfl
  | cons c rest =>
    rw [joinWords, joinWords, cased, cased, if_pos rfl, if_neg Bool.false_ne_true, h c rfl]

theorem joinWords_false_eq_self (h : ∀ c ∈ text, Text.isAlphanumeric c = true) :
    joinWords false text = text := by
  induction text with
  | nil => rfl
  | cons c rest ih =>
    rw [List.forall_mem_cons] at h
    rw [joinWords, if_pos h.1, ih h.2]
    rfl

/-- Where running words together leaves letters and digits at their places, there are no other
characters: the first of those would make room for the letter or digit behind it. -/
theorem isAlphanumeric_of_map_joinWords
    (h : (joinWords false text).map Text.isAlphanumeric = text.map Text.isAlphanumeric) :
    ∀ c ∈ text, Text.isAlphanumeric c = true := by
  induction text with
  | nil => nofun
  | cons c rest ih =>
    rw [joinWords] at h
    split at h
    · next hc => exact List.forall_mem_cons.mpr ⟨hc, ih (List.cons.inj h).2⟩
    · next hc =>
      cases hjoined : joinWords true rest with
      | nil =>
        rw [hjoined] at h
        cases h
      | cons d more =>
        rw [hjoined] at h
        have hd := (head?_joinWords true rest d (by rw [hjoined]; rfl)).1
        exact absurd ((List.cons.inj h).1.symm.trans hd) hc

/-! ## Raising the end -/

/-- A text stays as it is, or its final `Id` is raised. -/
theorem raised_eq_self_or (text : List Char) :
    raised text = text ∨ ∃ stem, text = stem ++ ['I', 'd'] ∧ raised text = stem ++ ['I', 'D'] := by
  unfold raised raiseId
  split
  · next before hreverse =>
    have htext := congrArg List.reverse hreverse
    rw [List.reverse_reverse] at htext
    exact .inr ⟨before.reverse, by simpa using htext, by simp⟩
  · exact .inl (List.reverse_reverse text)

/-- Raising the end twice is raising it once. -/
theorem raised_raised (text : List Char) : raised (raised text) = raised text := by
  rcases raised_eq_self_or text with h | ⟨stem, -, h⟩
  · rw [h, h]
  · rw [h]
    simp [raised, raiseId]

/-- Raising the end leaves letters and digits at their places. -/
theorem map_isAlphanumeric_raised (text : List Char) :
    (raised text).map Text.isAlphanumeric = text.map Text.isAlphanumeric := by
  rcases raised_eq_self_or text with h | ⟨stem, rfl, h⟩
  · rw [h]
  · have hend : ['I', 'D'].map Text.isAlphanumeric = ['I', 'd'].map Text.isAlphanumeric := by
      rfl
    rw [h, List.map_append, List.map_append, hend]

/-- Raising the end leaves the first character. -/
theorem head?_raised (text : List Char) : (raised text).head? = text.head? := by
  rcases raised_eq_self_or text with h | ⟨stem, rfl, h⟩
  · rw [h]
  · rw [h]
    cases stem <;> rfl

/-- Raising the end adds no characters but letters and digits, and takes none of the others away. -/
theorem forall_raised_iff (text : List Char) :
    (∀ c ∈ raised text, Text.isAlphanumeric c = true) ↔ ∀ c ∈ text, Text.isAlphanumeric c = true := by
  have classes := map_isAlphanumeric_raised text
  have all_iff (cs : List Char) :
      (∀ c ∈ cs, Text.isAlphanumeric c = true) ↔ ∀ b ∈ cs.map Text.isAlphanumeric, b = true := by
    rw [List.forall_mem_map]
  rw [all_iff, all_iff, classes]

/-- A character stays when the end is raised, but for a d. -/
theorem mem_raised {c : Char} (hc : c ≠ 'd') (h : c ∈ text) : c ∈ raised text := by
  rcases raised_eq_self_or text with hr | ⟨stem, rfl, hr⟩
  · rw [hr]
    exact h
  · rw [hr]
    simp only [List.mem_append, List.mem_cons, List.not_mem_nil, or_false, hc] at h ⊢
    exact h.imp_right .inl

/-- Raising the end adds two letters at most. -/
theorem mem_or_of_mem_raised {d : Char} (h : d ∈ raised text) : d ∈ text ∨ d ∈ ['I', 'D'] := by
  rcases raised_eq_self_or text with hr | ⟨stem, rfl, hr⟩
  · rw [hr] at h
    exact .inl h
  · rw [hr] at h
    exact (List.mem_append.mp h).imp_left (List.mem_append_left _)

/-! ## Names run together -/

/-- The words of a name run together, with the end raised. -/
def plain (exported : Bool) (name : List Char) : List Char :=
  raised (joinWords exported (body name))

/-- The identifier of a name, keywords not escaped. -/
def unescaped (exported : Bool) (name : List Char) : List Char := front name ++ plain exported name

/-- The identifier of a name is that, escaped if it is a keyword. -/
theorem ofName_eq (name : String) (exported : Bool) : ofName name exported =
    if !exported && keywords.contains (String.ofList (unescaped exported name.toList)) then
      "_" ++ String.ofList (unescaped exported name.toList)
    else String.ofList (unescaped exported name.toList) := by
  have hjoined : raised (joined exported name.toList) = unescaped exported name.toList := by
    rw [joined_eq, raised_front]
    rfl
  rw [← hjoined]
  rfl

/-- The initial of words run together does not change if it is raised again. -/
theorem joinWords_plain (exported : Bool) (name : List Char) :
    joinWords exported (plain exported name) = joinWords false (plain exported name) := by
  cases exported with
  | false => rfl
  | true =>
    refine joinWords_true_eq fun c hc => ?_
    rw [plain, head?_raised] at hc
    exact (head?_joinWords true _ c hc).2 rfl

/-- An identifier that is read as a name keeps its front. -/
theorem front_body_unescaped (exported : Bool) (name : List Char) :
    front (unescaped exported name) = front name ∧
      body (unescaped exported name) = plain exported name := by
  unfold unescaped
  cases hletter : startsWithLetter name with
  | true =>
    obtain ⟨hfront, hbody⟩ := front_body_of_startsWithLetter hletter
    have hplain : startsWithLetter (plain exported name) = true := by
      have hjoined := startsWithLetter_joinWords exported hletter
      rwa [plain, hbody, startsWithLetter, head?_raised]
    rw [hfront]
    exact front_body_of_startsWithLetter hplain
  | false =>
    have hfront := front_of_not_startsWithLetter hletter
    have hunder : startsWithLetter ('_' :: plain exported name) = false :=
      (Bool.or_eq_false_iff.mp isAlphanumeric_underscore).1
    rw [hfront, List.singleton_append, front, hunder, body, isAlphanumeric_underscore]
    exact ⟨rfl, rfl⟩

/-- An identifier stays as it is when it is read as a name, exactly if its words are made of letters
and digits. -/
theorem unescaped_unescaped_iff (exported : Bool) (name : List Char) :
    unescaped exported (unescaped exported name) = unescaped exported name ↔
      ∀ c ∈ plain exported name, Text.isAlphanumeric c = true := by
  obtain ⟨hfront, hbody⟩ := front_body_unescaped exported name
  have again : unescaped exported (unescaped exported name) =
      front name ++ raised (joinWords false (plain exported name)) := by
    rw [unescaped, hfront, plain, hbody, joinWords_plain]
  rw [again, unescaped, List.append_right_inj]
  constructor
  · intro h
    refine isAlphanumeric_of_map_joinWords ?_
    rw [← map_isAlphanumeric_raised, h]
  · intro h
    rw [joinWords_false_eq_self h, plain, raised_raised]

/-! ## Names that spell a word -/

/-- Whether a name spells a word: it is the word, but for what stands behind it, which holds no letters
and no digits. -/
def Spells (name word : List Char) : Prop :=
  word <+: name ∧ ∀ c ∈ name.drop word.length, Text.isAlphanumeric c = false

instance (name word : List Char) : Decidable (Spells name word) :=
  decidable_of_iff (word <+: name ∧ (name.drop word.length).any Text.isAlphanumeric = false) <|
    and_congr_right fun _ => by rw [List.any_eq_false]; simp

/-- A word of letters and digits that begins with a letter and has nothing in upper case. -/
structure IsLowerWord (word : List Char) : Prop where
  starts : startsWithLetter word = true
  lower : ∀ c ∈ word, Text.isAlphanumeric c = true ∧ Text.upperChar c ≠ [c]

instance (word : List Char) : Decidable (IsLowerWord word) :=
  decidable_of_iff (startsWithLetter word = true ∧
      (word.all fun c => Text.isAlphanumeric c && decide (Text.upperChar c ≠ [c])) = true)
    ⟨fun h => ⟨h.1, by simpa using h.2⟩, fun h => ⟨h.starts, by simpa using h.lower⟩⟩

/-- Only names without letters and digits have no words. -/
theorem joinWords_eq_nil_iff {upper : Bool} :
    joinWords upper name = [] ↔ ∀ c ∈ name, Text.isAlphanumeric c = false := by
  induction name generalizing upper with
  | nil => simp [joinWords]
  | cons c name ih =>
    rw [joinWords, List.forall_mem_cons]
    split
    · next hc =>
      obtain ⟨initial, more, hupper, -⟩ := Text.exists_upperChar c
      have hcased : cased upper c ≠ [] := by cases upper <;> simp [cased, hupper]
      simp [hc, hcased]
    · next hc => rw [ih, and_iff_right (Bool.eq_false_iff.mpr hc)]

/-- The words of a name are run together to a word in lower case exactly if the name spells it: the
initial of a second word would be in upper case. -/
theorem joinWords_false_eq_iff {word : List Char}
    (h : ∀ c ∈ word, Text.isAlphanumeric c = true ∧ Text.upperChar c ≠ [c]) :
    joinWords false name = word ↔ Spells name word := by
  induction name generalizing word with
  | nil =>
    have hnil : Spells [] word ↔ word = [] := by simp [Spells]
    rw [joinWords, hnil, eq_comm]
  | cons c name ih =>
    rw [joinWords]
    cases word with
    | nil =>
      have hnil : Spells (c :: name) [] ↔
          ∀ d ∈ c :: name, Text.isAlphanumeric d = false := by simp [Spells]
      rw [hnil, List.forall_mem_cons]
      split
      · next hc => simp [cased, hc]
      · next hc => rw [joinWords_eq_nil_iff, and_iff_right (Bool.eq_false_iff.mpr hc)]
    | cons d word =>
      rw [List.forall_mem_cons] at h
      have hcons : Spells (c :: name) (d :: word) ↔ c = d ∧ Spells name word := by
        rw [Spells, Spells, List.cons_prefix_cons, List.length_cons, List.drop_succ_cons, and_assoc,
          eq_comm]
      rw [hcons]
      split
      · next hc =>
        rw [cased, if_neg Bool.false_ne_true, List.singleton_append, List.cons.injEq, ih h.2]
      · next hc =>
        refine iff_of_false (fun hjoined => ?_) fun heq => hc (heq.1 ▸ h.1.1)
        have hhead := head?_joinWords true name d (by rw [hjoined]; rfl)
        exact h.1.2 (hhead.2 rfl)

/-- So are they behind the front and with the end raised. -/
theorem unescaped_false_eq_iff {word : List Char} (h : IsLowerWord word) :
    unescaped false name = word ↔ Spells name word := by
  have capital : 'I' ∉ word ∧ 'D' ∉ word := by
    have hstays : Text.upperChar 'I' = ['I'] ∧ Text.upperChar 'D' = ['D'] := by decide +kernel
    exact ⟨fun hmem => (h.lower _ hmem).2 hstays.1, fun hmem => (h.lower _ hmem).2 hstays.2⟩
  have raised_iff (text : List Char) : raised text = word ↔ text = word := by
    rcases raised_eq_self_or text with hr | ⟨stem, rfl, hr⟩
    · rw [hr]
    · rw [hr]
      refine iff_of_false (fun heq => ?_) fun heq => ?_
      · exact capital.2 (heq ▸ by simp)
      · exact capital.1 (heq ▸ by simp)
  unfold unescaped plain
  cases hletter : startsWithLetter name with
  | true =>
    obtain ⟨hfront, hbody⟩ := front_body_of_startsWithLetter hletter
    rw [hfront, hbody, List.nil_append, raised_iff, joinWords_false_eq_iff h.lower]
  | false =>
    have hfront := front_of_not_startsWithLetter hletter
    refine iff_of_false (fun heq => ?_) fun hspells => ?_
    · have hstarts := h.starts
      rw [← heq, hfront, List.singleton_append, startsWithLetter, List.head?_cons] at hstarts
      exact absurd hstarts (by decide +kernel)
    · obtain ⟨⟨rest, rfl⟩, -⟩ := hspells
      cases word with
      | nil => cases h.starts
      | cons d word => exact absurd h.starts (hletter ▸ Bool.false_ne_true)

/-! ## What identifiers are made of -/

/-- No keyword begins with an underscore. -/
theorem head?_keyword : ∀ k ∈ keywords, k.toList.head? ≠ some '_' := by
  decide

/-- Keywords are made of letters. -/
theorem isAlphanumeric_keyword : ∀ k ∈ keywords, ∀ c ∈ k.toList, Text.isAlphanumeric c = true := by
  have hall : ∀ k ∈ keywords, k.toList.all Text.isAlphanumeric = true := by decide +kernel
  intro k hk
  exact List.all_eq_true.mp (hall k hk)

/-- An escaped keyword is no keyword. -/
theorem escaped_not_mem_keywords {k : String} : "_" ++ k ∉ keywords := by
  intro h
  apply head?_keyword _ h
  rw [String.toList_append]
  rfl

/-- The words of an identifier hold no underscore. -/
theorem underscore_not_mem_plain (exported : Bool) (name : List Char) :
    '_' ∉ plain exported name :=
  underscore_not_mem_raised (underscore_not_mem_joinWords exported _)

/-- Names have one identifier, keywords not escaped, exactly if both begin with a letter or neither
does and their words are run together to the same text. -/
theorem unescaped_eq_iff {exported exported' : Bool} {name name' : List Char} :
    unescaped exported name = unescaped exported' name' ↔
      startsWithLetter name = startsWithLetter name' ∧
        plain exported name = plain exported' name' := by
  have hplain := underscore_not_mem_plain exported name
  have hplain' := underscore_not_mem_plain exported' name'
  unfold unescaped front
  cases startsWithLetter name <;> cases startsWithLetter name'
  · simp
  · simp only [Bool.false_eq_true, if_false, if_true, List.nil_append, false_and, iff_false]
    intro h
    rw [← h] at hplain'
    exact hplain' List.mem_cons_self
  · simp only [Bool.true_eq_false, Bool.false_eq_true, if_false, if_true, List.nil_append,
      false_and, iff_false]
    intro h
    rw [h] at hplain
    exact hplain List.mem_cons_self
  · simp

/-- An exported identifier is never escaped. -/
theorem ofName_true (name : String) :
    ofName name true = String.ofList (unescaped true name.toList) := by
  simp [ofName_eq]

/-- It begins in upper case, behind an underscore if there is one. -/
theorem ofName_true_ne {word : String} (title : String)
    (h : ∃ c rest, word.toList = c :: rest ∧ Text.upperChar c ≠ [c]) :
    ofName title true ≠ word ∧ ofName title true ≠ "_" ++ word := by
  obtain ⟨c, rest, hword, hc⟩ := h
  have hplain : plain true title.toList ≠ word.toList := by
    intro heq
    refine hc ((head?_joinWords true (body title.toList) c ?_).2 rfl)
    rw [← head?_raised]
    show (plain true title.toList).head? = some c
    rw [heq, hword]
    rfl
  have hunder := underscore_not_mem_plain true title.toList
  rw [ofName_true, ← String.toList_inj.ne, ← String.toList_inj.ne, String.toList_append,
    String.toList_ofList]
  unfold unescaped front
  split
  · refine ⟨hplain, fun heq => hunder ?_⟩
    rw [List.nil_append] at heq
    rw [heq]
    exact List.mem_append_left _ (List.mem_singleton_self _)
  · refine ⟨fun heq => ?_, fun heq => hplain (List.append_cancel_left heq)⟩
    rw [hword, List.singleton_append, List.cons.injEq] at heq
    exact hc (heq.1 ▸ by decide +kernel)

/-- A letter or a digit that is its own upper-case form stays in the words. -/
theorem mem_plain_of_mem {c : Char} (hc : Text.isAlphanumeric c = true ∧ c ≠ 'd')
    (hupper : Text.upperChar c = [c]) (h : c ∈ name) : c ∈ plain exported name :=
  mem_raised hc.2 (mem_joinWords hc.1 hupper (mem_body hc.1 h))

/-- The words are made of letters and digits of the name, and of what becomes of raised ones: letters
in upper case, and characters that are not ASCII. -/
theorem mem_or_of_mem_plain {d : Char} (h : d ∈ plain exported name) :
    d ∈ name ∧ Text.isAlphanumeric d = true ∨ (d.isUpper = true ∨ 128 ≤ d.toNat) ∧ d ≠ 'İ' := by
  rcases mem_or_of_mem_raised h with h | h
  · exact (mem_or_of_mem_joinWords h).imp_left (.imp_left fun hmem => body_subset name hmem)
  · have capital : ∀ d ∈ ['I', 'D'], (d.isUpper = true ∨ 128 ≤ d.toNat) ∧ d ≠ 'İ' :=
      List.forall_mem_cons.mpr ⟨by decide, List.forall_mem_singleton.mpr (by decide)⟩
    exact .inr (capital d h)

/-- An identifier is an underscore and words, or words that begin with a letter. -/
theorem exists_toList_ofName (name : String) (exported : Bool) : ∃ before,
    (ofName name exported).toList = before ++ plain exported name.toList ∧
      (before = ['_'] ∨
        before = [] ∧ startsWithLetter (plain exported name.toList) = true) := by
  have hfront : front name.toList = ['_'] ∨ front name.toList = [] ∧
      startsWithLetter (plain exported name.toList) = true := by
    cases hletter : startsWithLetter name.toList with
    | false => exact .inl (front_of_not_startsWithLetter hletter)
    | true =>
      obtain ⟨hfront, hbody⟩ := front_body_of_startsWithLetter hletter
      have hjoined := startsWithLetter_joinWords exported hletter
      refine .inr ⟨hfront, ?_⟩
      rwa [plain, hbody, startsWithLetter, head?_raised]
  rw [ofName_eq]
  split
  · next hkeyword =>
    rw [Bool.and_eq_true, List.contains_iff_mem] at hkeyword
    rcases hfront with hfront | ⟨hfront, -⟩
    · refine absurd ?_ (head?_keyword _ hkeyword.2)
      rw [String.toList_ofList, unescaped, hfront]
      rfl
    · refine ⟨['_'], ?_, .inl rfl⟩
      simp [unescaped, hfront, String.toList_append]
  · exact ⟨front name.toList, String.toList_ofList, hfront⟩

/-- An identifier that is not exported is no keyword. -/
theorem ofName_not_mem_keywords (name : String) : ofName name false ∉ keywords := by
  rw [ofName_eq]
  split
  · exact escaped_not_mem_keywords
  · next h => simpa using h

/-- The words of an identifier are letters and digits exactly if the raised initials are. -/
theorem forall_plain_iff (exported : Bool) (name : String) :
    (∀ c ∈ plain exported name.toList, Text.isAlphanumeric c = true) ↔
      HasPlainInitials exported name := by
  rw [plain, forall_raised_iff, forall_joinWords_iff]

/-- An identifier is made of letters, digits and underscores exactly if the raised initials are
letters and digits. -/
theorem forall_ofName_iff (name : String) (exported : Bool) :
    (∀ c ∈ (ofName name exported).toList, Text.isAlphanumeric c = true ∨ c = '_') ↔
      HasPlainInitials exported name := by
  obtain ⟨before, hchars, hbefore⟩ := exists_toList_ofName name exported
  have underscores : ∀ c ∈ before, Text.isAlphanumeric c = true ∨ c = '_' := by
    rcases hbefore with rfl | ⟨rfl, -⟩
    · simp
    · nofun
  rw [hchars, List.forall_mem_append, and_iff_right underscores, ← forall_plain_iff]
  refine forall₂_congr fun c hc => or_iff_left ?_
  rintro rfl
  exact underscore_not_mem_plain exported _ hc

/-- **What an identifier is.** The identifier of a name is not empty, begins with a letter or an
underscore, and is no keyword unless it is exported. It holds nothing but letters, digits and
underscores exactly if the initials that are raised are letters and digits in upper case as well. -/
theorem identifier_well_formed_iff (name : String) (exported : Bool) :
    (∃ c rest, (ofName name exported).toList = c :: rest ∧
        (Text.isAlphabetic c = true ∨ c = '_')) ∧
      ofName name false ∉ keywords ∧
      ((∀ c ∈ (ofName name exported).toList, Text.isAlphanumeric c = true ∨ c = '_') ↔
        HasPlainInitials exported name) := by
  refine ⟨?_, ofName_not_mem_keywords name, forall_ofName_iff name exported⟩
  obtain ⟨before, hchars, rfl | ⟨rfl, hletter⟩⟩ := exists_toList_ofName name exported
  · exact ⟨'_', _, hchars, .inr rfl⟩
  · cases hplain : plain exported name.toList with
    | nil =>
      rw [hplain] at hletter
      cases hletter
    | cons c rest =>
      rw [hplain] at hletter
      exact ⟨c, rest, by rw [hchars, hplain, List.nil_append], .inl hletter⟩

/-- A letter whose upper-case form is a letter with two marks. -/
def markedLetter : String := "\u0390"

/-- The marks are neither letters nor digits, and no underscores. -/
theorem identifier_not_well_formed_of_marked_letter :
    ¬ ∀ (name : String) (exported : Bool), ∀ c ∈ (ofName name exported).toList,
      Text.isAlphanumeric c = true ∨ c = '_' := by
  intro wellFormed
  have hmark : '\u0308' ∈ (ofName markedLetter true).toList ∧
      ¬ (Text.isAlphanumeric '\u0308' = true ∨ '\u0308' = '_') := by
    decide +kernel
  exact hmark.2 (wellFormed markedLetter true _ hmark.1)

/-! ## Identifiers of identifiers -/

/-- An escaped keyword is its own identifier. -/
theorem ofName_escaped : ∀ k ∈ keywords, ofName ("_" ++ k) false = "_" ++ k := by
  decide +kernel

/-- An identifier is its own identifier exactly if the raised initials are letters and digits. -/
theorem ofName_ofName_iff (name : String) (exported : Bool) :
    ofName (ofName name exported) exported = ofName name exported ↔
      HasPlainInitials exported name := by
  rw [← forall_plain_iff, ← unescaped_unescaped_iff]
  have hname := ofName_eq name exported
  split at hname
  · next hkeyword =>
    -- A keyword is escaped, and its words are letters.
    simp only [Bool.and_eq_true, Bool.not_eq_true', List.contains_iff_mem] at hkeyword
    obtain ⟨rfl, hkeyword⟩ := hkeyword
    rw [hname, unescaped_unescaped_iff]
    refine iff_of_true (ofName_escaped _ hkeyword) fun c hc => ?_
    refine isAlphanumeric_keyword _ hkeyword c ?_
    rw [String.toList_ofList, unescaped]
    exact List.mem_append_right _ hc
  · next hfree =>
    rw [hname, ofName_eq, String.toList_ofList]
    constructor
    · intro h
      split at h
      · next hkeyword =>
        -- An identifier that is an escaped keyword has the letters of the keyword.
        simp only [Bool.and_eq_true, List.contains_iff_mem] at hkeyword
        rw [unescaped_unescaped_iff]
        intro c hc
        have hmem : c ∈ unescaped exported name.toList := List.mem_append_right _ hc
        have hchars := congrArg String.toList h
        rw [String.toList_append, String.toList_ofList (l := unescaped exported name.toList)] at hchars
        rw [← hchars, List.mem_append] at hmem
        rcases hmem with hunder | hletter
        · rw [List.mem_singleton.mp hunder] at hc
          exact absurd hc (underscore_not_mem_plain exported _)
        · exact isAlphanumeric_keyword _ hkeyword.2 c hletter
      · exact String.ofList_injective h
    · intro h
      rw [h, if_neg hfree]

/-- An identifier does not end in an underscore behind other characters. -/
theorem ofName_ne_append_underscore (name : String) (exported : Bool) {r : String}
    (h : ∃ c rest, r.toList = c :: rest ∧ c ≠ '_') : ofName name exported ≠ r ++ "_" := by
  intro heq
  obtain ⟨c, rest, hr, hc⟩ := h
  obtain ⟨before, hchars, hbefore⟩ := exists_toList_ofName name exported
  have hnone := underscore_not_mem_plain exported name.toList
  rw [heq, String.toList_append, hr] at hchars
  rcases hbefore with rfl | ⟨rfl, -⟩
  · exact hc (List.cons.inj hchars).1
  · rw [List.nil_append] at hchars
    rw [← hchars] at hnone
    exact hnone (List.mem_append_right _ List.mem_cons_self)

end Identifier

/-! ## Naming rules -/

namespace Naming

/-- Reserved names are not empty and begin with something else than an underscore. -/
theorem head?_reserved : ∀ r ∈ reservedExports ++ reservedLocals,
    ∃ c rest, r.toList = c :: rest ∧ c ≠ '_' := by
  simp [reservedExports, reservedLocals]

/-- A reserved name gets an underscore behind it. -/
theorem avoiding_of_mem {reserved : List String} {name : String} (h : name ∈ reserved) :
    avoiding reserved name = name ++ "_" :=
  if_pos (List.contains_iff_mem.mpr h)

/-- Another name stays. -/
theorem avoiding_of_not_mem {reserved : List String} {name : String} (h : name ∉ reserved) :
    avoiding reserved name = name :=
  if_neg fun hmem => h (List.contains_iff_mem.mp hmem)

/-- No reserved name has an underscore in front. -/
theorem ne_underscore_append {r : String} (hr : r ∈ reservedExports ++ reservedLocals)
    (text : String) : r ≠ "_" ++ text := by
  obtain ⟨c, rest, hchars, hc⟩ := head?_reserved r hr
  intro heq
  rw [heq, String.toList_append] at hchars
  exact hc (List.cons.inj hchars).1.symm

/-- Avoiding reserved names does not change whether a name stays, if an avoided name goes back to the
reserved one and nothing else looks like it. -/
theorem avoiding_avoiding_iff {reserved : List String} {f : String → String} {name : String}
    (hstays : ∀ r ∈ reserved, f r = r) (hback : ∀ r ∈ reserved, f (r ++ "_") = r)
    (hne : ∀ r ∈ reserved, f name ≠ r ++ "_") :
    avoiding reserved (f (avoiding reserved (f name))) = avoiding reserved (f name) ↔
      f (f name) = f name := by
  by_cases h : f name ∈ reserved
  · rw [avoiding_of_mem h, hback _ h, avoiding_of_mem h, hstays _ h]
    exact iff_of_true rfl rfl
  · rw [avoiding_of_not_mem h]
    by_cases hagain : f (f name) ∈ reserved
    · rw [avoiding_of_mem hagain]
      exact iff_of_false (hne _ hagain).symm fun heq => h (heq ▸ hagain)
    · rw [avoiding_of_not_mem hagain]

/-- Reserved names are their own identifiers, and those of themselves with an underscore behind. -/
theorem ofName_reserved : ∀ exported, ∀ r ∈ if exported then reservedExports else reservedLocals,
    Identifier.ofName r exported = r ∧ Identifier.ofName (r ++ "_") exported = r := by
  decide +kernel

/-- A name that is kept apart from the reserved ones stays exactly if its identifier does. -/
theorem avoiding_ofName_iff (name : String) (exported : Bool) {f : String → String}
    (h : ∀ n, f n = avoiding (if exported then reservedExports else reservedLocals)
      (Identifier.ofName n exported)) :
    f (f name) = f name ↔ Identifier.HasPlainInitials exported name := by
  rw [← Identifier.ofName_ofName_iff, h, h]
  apply avoiding_avoiding_iff (f := fun n => Identifier.ofName n exported)
  · exact fun r hr => (ofName_reserved exported r hr).1
  · exact fun r hr => (ofName_reserved exported r hr).2
  · intro r hr
    apply Identifier.ofName_ne_append_underscore
    apply head?_reserved
    cases exported with
    | true => exact List.mem_append_left _ hr
    | false => exact List.mem_append_right _ hr

/-- **When names are stable.** An identifier, a parameter name or an exported name is what it is made
into again, exactly if the initials that are raised are letters and digits in upper case as well. -/
theorem names_stable_iff (name : String) :
    (∀ exported, Identifier.ofName (Identifier.ofName name exported) exported =
        Identifier.ofName name exported ↔ Identifier.HasPlainInitials exported name) ∧
      (standard.param (standard.param name) = standard.param name ↔
        Identifier.HasPlainInitials false name) ∧
      (standard.exported (standard.exported name) = standard.exported name ↔
        Identifier.HasPlainInitials true name) := by
  have hparam := avoiding_ofName_iff name false fun n => (rfl : standard.param n = _)
  have hexported := avoiding_ofName_iff name true fun n => (rfl : standard.exported n = _)
  exact ⟨Identifier.ofName_ofName_iff name, hparam, hexported⟩

/-- A letter whose upper-case form is a letter with two marks: the marks are lost the second time. -/
theorem names_not_stable_of_marked_letter :
    ¬ ∀ (name : String) (exported : Bool),
      Identifier.ofName (Identifier.ofName name exported) exported =
        Identifier.ofName name exported := by
  intro stable
  have := stable Identifier.markedLetter true
  revert this
  decide +kernel

end Naming

end QueryBook
