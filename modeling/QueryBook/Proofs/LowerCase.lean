import QueryBook.Proofs.UpperCase

/-!
# Lower case

The lower-case form of a text is its own lower-case form. Letters stay letters and all other
characters stay as they are, but for the dotted capital I, which becomes an i and a mark.
-/

namespace QueryBook.Text

/-! ## Characters -/

/-- The code points that lower case changes. -/
def lowerDomain : List Nat :=
  Table.lowerExpansions.map (·.1) ++ Table.lowerRuns.flatMap (·.members)

/-- The code points of the letters it changes them to. -/
def lowerLetters : List Nat := Table.lowerRuns.flatMap fun r => r.members.map r.image

/-- None of these is changed again, and all are letters and code points of characters. -/
theorem lowerLetters_checked : bits lowerLetters &&& bits lowerDomain = 0 ∧
    bits lowerLetters &&& rangeBits Table.alphabetic = bits lowerLetters ∧
      ∀ n ∈ lowerLetters, n < 0xD800 ∨ 0xDFFF < n ∧ n < 0x110000 := by
  decide +kernel

/-- Only letters are changed. -/
theorem lowerDomain_checked :
    bits lowerDomain &&& rangeBits Table.alphabetic = bits lowerDomain := by
  decide +kernel

/-- A character that lower case leaves as it is, wherever it stands. -/
structure IsLower (c : Char) : Prop where
  stays : lowerChar c = [c]
  ne_sigma : c ≠ 'Σ'

/-- The mark that the dotted capital I leaves. -/
def dotAbove : Char := '\u0307'

/-- What lower case makes of a character: the character, another letter for a letter, or an i with a
mark. -/
inductive LowerImage (c : Char) : List Char → Prop
  | same (h : IsLower c) : LowerImage c [c]
  | letter {d : Char} (hc : isAlphabetic c = true ∧ c ≠ 'İ') (hd : isAlphabetic d = true)
    (h : IsLower d) : LowerImage c [d]
  | dotted (h : c = 'İ') : LowerImage c ['i', dotAbove]

/-- A code point that is not changed is that of a character in lower case. -/
theorem isLower_of_not_mem {c : Char} (h : c.toNat ∉ lowerDomain) : IsLower c := by
  refine ⟨?_, ?_⟩
  · have hlookup : Table.lowerExpansions.lookup c.toNat = none := by
      rw [List.lookup_eq_none_iff]
      intro e he
      rw [bne_iff_ne]
      rintro heq
      exact h (List.mem_append_left _ (heq ▸ List.mem_map_of_mem he))
    have hfind : Table.lowerRuns.find? (·.covers c.toNat) = none := by
      rw [List.find?_eq_none]
      intro run hrun hcovers
      exact h (List.mem_append_right _
        (List.mem_flatMap_of_mem hrun (Table.CaseRun.mem_members hcovers)))
    rw [lowerChar, mapCodePoint, hlookup, hfind, List.map_singleton, Char.ofNat_toNat]
  · rintro rfl
    exact h (by decide +kernel)

/-- The dotted capital I is not in lower case. -/
theorem not_isLower_dotted : ¬ IsLower 'İ' := by
  intro h
  have := h.stays
  revert this
  decide +kernel

/-- A letter that is changed to is in lower case. -/
theorem letter_of_mem_lowerLetters {n : Nat} (h : n ∈ lowerLetters) :
    isAlphabetic (Char.ofNat n) = true ∧ IsLower (Char.ofNat n) := by
  have hcode := toNat_ofNat (lowerLetters_checked.2.2 n h)
  refine ⟨?_, isLower_of_not_mem ?_⟩
  · rw [isAlphabetic, hcode]
    exact inRanges_of_bits lowerLetters_checked.2.1 h
  · rw [hcode]
    exact not_mem_of_bits lowerLetters_checked.1 h

/-- What lower case makes of a character that stands alone. -/
theorem lowerImage_lowerChar {c : Char} (hc : c ≠ 'Σ') : LowerImage c (lowerChar c) := by
  by_cases hmem : c.toNat ∈ lowerDomain
  · have hletter : isAlphabetic c = true := inRanges_of_bits lowerDomain_checked hmem
    rw [lowerChar, mapCodePoint]
    cases hlookup : Table.lowerExpansions.lookup c.toNat with
    | some image =>
      -- There is one expansion, that of the dotted capital I.
      obtain ⟨before, after, hsplit, -⟩ := List.lookup_eq_some_iff.mp hlookup
      have hexpansion : (c.toNat, image) ∈ [('İ'.toNat, ['i'.toNat, dotAbove.toNat])] := by
        have hall : Table.lowerExpansions = [('İ'.toNat, ['i'.toNat, dotAbove.toNat])] := rfl
        rw [← hall, hsplit]
        exact List.mem_append_right _ List.mem_cons_self
      obtain ⟨hcode, rfl⟩ := Prod.mk.inj (List.mem_singleton.mp hexpansion)
      have hdotted : c = 'İ' := by rw [← Char.ofNat_toNat c, hcode, Char.ofNat_toNat]
      exact .dotted hdotted
    | none =>
      cases hfind : Table.lowerRuns.find? (·.covers c.toNat) with
      | some run =>
        have hcovers := List.find?_some hfind
        have himage : run.image c.toNat ∈ lowerLetters := List.mem_flatMap_of_mem
          (List.mem_of_find?_eq_some hfind) (List.mem_map_of_mem (Table.CaseRun.mem_members hcovers))
        obtain ⟨hd, hlower⟩ := letter_of_mem_lowerLetters himage
        have hne : c ≠ 'İ' := by
          rintro rfl
          cases hlookup
        exact .letter ⟨hletter, hne⟩ hd hlower
      | none =>
        have hstays : lowerChar c = [c] := by
          rw [lowerChar, mapCodePoint, hlookup, hfind, List.map_singleton, Char.ofNat_toNat]
        show LowerImage c [Char.ofNat c.toNat]
        rw [Char.ofNat_toNat]
        exact .same ⟨hstays, hc⟩
  · have hlower := isLower_of_not_mem hmem
    rw [hlower.stays]
    exact .same hlower

/-! ## Texts -/

variable {before text : List Char}

theorem exists_lowerAfter_cons (before : List Char) (c : Char) (text : List Char) : ∃ image,
    lowerAfter before (c :: text) = image ++ lowerAfter (c :: before) text ∧ LowerImage c image := by
  rw [lowerAfter]
  by_cases hc : c = 'Σ'
  · have hletter : isAlphabetic c = true ∧ c ≠ 'İ' := by
      rw [hc]
      decide +kernel
    have hsigma : (isAlphabetic 'σ' = true ∧ 'σ'.toNat ∉ lowerDomain) ∧
        isAlphabetic 'ς' = true ∧ 'ς'.toNat ∉ lowerDomain := by
      decide +kernel
    rw [if_pos hc]
    split
    · exact ⟨_, rfl, .letter hletter hsigma.2.1 (isLower_of_not_mem hsigma.2.2)⟩
    · exact ⟨_, rfl, .letter hletter hsigma.1.1 (isLower_of_not_mem hsigma.1.2)⟩
  · rw [if_neg hc]
    exact ⟨_, rfl, lowerImage_lowerChar hc⟩

theorem lowerAfter_eq_self (h : ∀ c ∈ text, IsLower c) : lowerAfter before text = text := by
  induction text generalizing before with
  | nil => rfl
  | cons c text ih =>
    rw [List.forall_mem_cons] at h
    rw [lowerAfter, if_neg h.1.ne_sigma, h.1.stays, ih h.2]
    rfl

/-- The character that an i with a mark begins with, and the mark, are in lower case. -/
theorem isLower_dotted : ∀ d ∈ ['i', dotAbove], IsLower d := by
  have hmem : 'i'.toNat ∉ lowerDomain ∧ dotAbove.toNat ∉ lowerDomain := by decide +kernel
  exact List.forall_mem_cons.mpr ⟨isLower_of_not_mem hmem.1,
    List.forall_mem_singleton.mpr (isLower_of_not_mem hmem.2)⟩

/-- What becomes of a character is in lower case. -/
theorem LowerImage.isLower {c : Char} {image : List Char} (h : LowerImage c image) :
    ∀ d ∈ image, IsLower d := by
  cases h with
  | same h => exact List.forall_mem_singleton.mpr h
  | letter _ _ h => exact List.forall_mem_singleton.mpr h
  | dotted _ => exact isLower_dotted

/-- The lower-case form of a text is in lower case. -/
theorem isLower_of_mem_lowerAfter : ∀ d ∈ lowerAfter before text, IsLower d := by
  induction text generalizing before with
  | nil => nofun
  | cons c text ih =>
    obtain ⟨image, hcons, himage⟩ := exists_lowerAfter_cons before c text
    rw [hcons, List.forall_mem_append]
    exact ⟨himage.isLower, ih⟩

/-- Lower case of lower case is the same. -/
theorem lower_lower (text : String) : lower (lower text) = lower text := by
  rw [lower, lower, String.toList_ofList, lowerAfter_eq_self isLower_of_mem_lowerAfter]

/-- A text that begins with a letter does so in lower case. -/
theorem any_head?_lowerAfter (h : text.head?.any isAlphabetic = true) :
    (lowerAfter before text).head?.any isAlphabetic = true := by
  cases text with
  | nil => cases h
  | cons c text =>
    obtain ⟨image, hcons, himage⟩ := exists_lowerAfter_cons before c text
    rw [hcons]
    cases himage with
    | same _ => exact h
    | letter _ hd _ => exact hd
    | dotted _ => exact (by decide +kernel : isAlphabetic 'i' = true)

/-- A text whose lower-case form is made of underscores is made of underscores. -/
theorem forall_eq_underscore_of_lowerAfter (h : ∀ d ∈ lowerAfter before text, d = '_') :
    ∀ c ∈ text, c = '_' := by
  have hletter {d : Char} (hd : isAlphabetic d = true) : d ≠ '_' := by
    rintro rfl
    revert hd
    decide +kernel
  induction text generalizing before with
  | nil => nofun
  | cons c text ih =>
    obtain ⟨image, hcons, himage⟩ := exists_lowerAfter_cons before c text
    rw [hcons, List.forall_mem_append] at h
    refine List.forall_mem_cons.mpr ⟨?_, ih h.2⟩
    cases himage with
    | same _ => exact h.1 c (List.mem_singleton_self c)
    | letter _ hd _ => exact absurd (h.1 _ (List.mem_singleton_self _)) (hletter hd)
    | dotted _ => exact absurd (h.1 'i' List.mem_cons_self) (by decide)

/-- What lower case makes is taken over from the text, a letter, or a mark. -/
theorem mem_or_of_mem_lowerAfter {d : Char} (h : d ∈ lowerAfter before text) :
    d ∈ text ∨ isAlphabetic d = true ∨ d = dotAbove := by
  induction text generalizing before with
  | nil => cases h
  | cons c text ih =>
    obtain ⟨image, hcons, himage⟩ := exists_lowerAfter_cons before c text
    rw [hcons, List.mem_append] at h
    rcases h with h | h
    · cases himage with
      | same _ => exact .inl (List.mem_cons.mpr (.inl (List.mem_singleton.mp h)))
      | letter _ hd _ => exact .inr (.inl (List.mem_singleton.mp h ▸ hd))
      | dotted _ =>
        rcases List.mem_cons.mp h with rfl | h
        · exact .inr (.inl (by decide +kernel))
        · exact .inr (.inr (List.mem_singleton.mp h))
    · exact (ih h).imp_left (List.mem_cons_of_mem c)

/-- Where there is no dotted capital I, lower case leaves letters and digits at their places. -/
theorem map_isAlphanumeric_lowerAfter (h : 'İ' ∉ text) :
    (lowerAfter before text).map isAlphanumeric = text.map isAlphanumeric := by
  induction text generalizing before with
  | nil => rfl
  | cons c text ih =>
    rw [List.mem_cons, not_or] at h
    obtain ⟨image, hcons, himage⟩ := exists_lowerAfter_cons before c text
    rw [hcons, List.map_append, ih h.2, List.map_cons]
    cases himage with
    | same _ => rfl
    | letter hc hd _ =>
      rw [List.map_singleton, isAlphanumeric, isAlphanumeric, hc.1, hd]
      rfl
    | dotted hc => exact absurd hc.symm h.1

/-- The lower-case form is made of letters and digits exactly if the text is, and holds no dotted
capital I. -/
theorem forall_lowerAfter_iff :
    (∀ d ∈ lowerAfter before text, isAlphanumeric d = true) ↔
      (∀ c ∈ text, isAlphanumeric c = true) ∧ 'İ' ∉ text := by
  induction text generalizing before with
  | nil => simp [lowerAfter]
  | cons c text ih =>
    obtain ⟨image, hcons, himage⟩ := exists_lowerAfter_cons before c text
    rw [hcons, List.forall_mem_append, ih, List.forall_mem_cons, List.mem_cons, not_or]
    have hletter {d : Char} (hd : isAlphabetic d = true) : isAlphanumeric d = true := by
      rw [isAlphanumeric, hd, Bool.true_or]
    cases himage with
    | same hlower =>
      have hne : 'İ' ≠ c := fun h => not_isLower_dotted (h ▸ hlower)
      rw [List.forall_mem_singleton, and_assoc, and_congr_right_iff]
      exact fun _ => and_congr_right_iff.mpr fun _ => (and_iff_right hne).symm
    | letter hc hd hlower =>
      rw [List.forall_mem_singleton]
      simp only [hletter hc.1, hletter hd, hc.2.symm, true_and, not_false_eq_true]
    | dotted hc =>
      have hmark : isAlphanumeric dotAbove = false := by decide +kernel
      refine iff_of_false (fun h => ?_) fun h => h.2.1 hc.symm
      exact Bool.false_ne_true (hmark.symm.trans (h.1 dotAbove (by simp)))

end QueryBook.Text
