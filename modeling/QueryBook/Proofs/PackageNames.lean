import QueryBook.Accessor.Package
import QueryBook.Proofs.CodeNames
import QueryBook.Proofs.LowerCase
import QueryBook.Proofs.Pieces

/-!
# Package names

A package is named after the last segment of a path that is not empty. Its name is never empty, in
lower case, and not made of underscores alone. Keywords are escaped before a name goes to lower case:
a segment that spells a keyword only in lower case gives a keyword. Other names are their own package
names, unless a raised initial or a dotted capital I leaves marks in them.
-/

namespace QueryBook.Package

open Identifier

/-! ## Segments -/

/-- The segments of a path: what stands between slashes of either kind. -/
def segments (path : List Char) : List (List Char) :=
  path.splitOnP fun c => decide (c = '/' ∨ c = '\\')

/-- The last segment of a path that is not empty; an empty one if there is none. -/
def segment (path : String) : List Char :=
  ((segments path.toList).filter (· ≠ [])).getLast?.getD []

/-- The segments are the pieces between slashes, both kinds written alike. -/
theorem splitOnChar_slashes (path : List Char) :
    Text.splitOnChar '/' (path.map fun c => if c = '\\' then '/' else c) = segments path := by
  induction path with
  | nil => rfl
  | cons c path ih =>
    rw [List.map_cons, Text.splitOnChar, ih, segments, segments,
      List.splitOnP_cons_eq_if_modifyHead]
    have hslash : (if c = '\\' then '/' else c) = '/' ↔ c = '/' ∨ c = '\\' := by
      split <;> simp_all
    by_cases hc : c = '/' ∨ c = '\\'
    · rw [if_pos (hslash.mpr hc), if_pos (decide_eq_true hc)]
    · rw [if_neg (mt hslash.mp hc), if_neg fun h => hc (.inr h), if_neg (by simpa using hc)]
      obtain ⟨piece, pieces, hsplit⟩ := List.exists_cons_of_ne_nil (List.splitOnP_ne_nil _ path)
      rw [hsplit, List.modifyHead_cons]

/-- Separators at the end of a text add empty pieces only. -/
theorem filter_splitOnChar_replicate (separator : Char) (text : List Char) (count : Nat) :
    (Text.splitOnChar separator (text ++ List.replicate count separator)).filter (· ≠ []) =
      (Text.splitOnChar separator text).filter (· ≠ []) := by
  induction count with
  | zero => rw [List.replicate_zero, List.append_nil]
  | succ count ih =>
    rw [List.replicate_succ', ← List.append_assoc, Text.splitOnChar_append, List.filter_append, ih]
    exact List.append_nil _

/-- The last segment, slashes at the end left out, is the last one that is not empty. -/
theorem lastSegment_eq (path : String) : lastSegment path.toList = segment path := by
  rw [lastSegment, segment, ← splitOnChar_slashes]
  generalize (path.toList.map fun c => if c = '\\' then '/' else c) = text
  have hend := Text.dropEndWhile_eq_append_replicate '/' text
  have hpieces := filter_splitOnChar_replicate '/' (Text.dropEndWhile (· = '/') text)
    (text.length - (Text.dropEndWhile (· = '/') text).length)
  rw [hend] at hpieces
  rw [hpieces]
  by_cases hnil : Text.dropEndWhile (· = '/') text = []
  · rw [hnil]
    rfl
  · have hlast : (Text.dropEndWhile (· = '/') text).getLast? ≠ some '/' := by
      intro h
      have := Text.getLast?_dropEndWhile (· = '/') text '/' h
      simp at this
    obtain ⟨before, piece, hsplit, hpiece⟩ := Text.exists_last_piece hnil hlast
    rw [hsplit, List.filter_append, List.filter_cons_of_pos (by simpa using hpiece)]
    simp

theorem segment_eq_self {path : String} (h : ∀ c ∈ path.toList, c ≠ '/' ∧ c ≠ '\\') :
    segment path = path.toList := by
  have hsingle : segments path.toList = [path.toList] := by
    rw [segments, List.splitOnP_eq_singleton]
    exact fun c hc => by simp [h c hc]
  rw [segment, hsingle]
  cases path.toList <;> rfl

/-! ## Segments in lower case -/

variable {seg : List Char}

/-- The identifier of a segment, in lower case. -/
def lowered (seg : List Char) : List Char :=
  Text.lowerAfter [] (ofName (String.ofList seg) false).toList

/-- A name that begins with a letter or an underscore is its front and its body. -/
theorem front_append_body {name : List Char}
    (h : startsWithLetter name = true ∨ name.head? = some '_') : front name ++ body name = name := by
  rcases h with h | h
  · rw [(front_body_of_startsWithLetter h).1, (front_body_of_startsWithLetter h).2,
      List.nil_append]
  · cases name with
    | nil => cases h
    | cons c rest =>
      obtain rfl : c = '_' := Option.some.inj h
      rfl

/-- In lower case an identifier is its front, and its words in lower case behind it. -/
theorem front_body_lowered (seg : List Char) :
    front (lowered seg) ++ body (lowered seg) = lowered seg ∧
      ∃ before, body (lowered seg) = Text.lowerAfter before (plain false seg) := by
  obtain ⟨first, hchars, hfirst⟩ := exists_toList_ofName (String.ofList seg) false
  rw [String.toList_ofList] at hchars hfirst
  rw [lowered, hchars]
  rcases hfirst with rfl | ⟨rfl, hletter⟩
  · exact ⟨front_append_body (.inr rfl), ['_'], rfl⟩
  · rw [List.nil_append]
    have hstarts : startsWithLetter (Text.lowerAfter [] (plain false seg)) = true :=
      Text.any_head?_lowerAfter hletter
    exact ⟨front_append_body (.inl hstarts), [], (front_body_of_startsWithLetter hstarts).2⟩

/-- The words are letters and digits in lower case exactly if the raised initials are letters and
digits, and there is no dotted capital I. -/
theorem forall_body_lowered_iff (seg : List Char) :
    (∀ c ∈ body (lowered seg), Text.isAlphanumeric c = true) ↔
      HasPlainInitials false (String.ofList seg) ∧ 'İ' ∉ seg := by
  obtain ⟨-, before, hbody⟩ := front_body_lowered seg
  have hplain := forall_plain_iff false (String.ofList seg)
  rw [String.toList_ofList] at hplain
  have hdotted : 'İ' ∈ plain false seg ↔ 'İ' ∈ seg := by
    constructor
    · exact fun h => (mem_or_of_mem_plain h).elim (·.1) fun h => absurd rfl h.2
    · exact mem_plain_of_mem (by decide +kernel) (by decide +kernel)
  rw [hbody, Text.forall_lowerAfter_iff, hplain, hdotted]

/-- In lower case an identifier is a word, so it holds no slashes. -/
theorem ne_slash_of_mem_lowered : ∀ c ∈ lowered seg, c ≠ '/' ∧ c ≠ '\\' := by
  intro c hc
  have hword : Code.isWordChar c = true := by
    rcases Text.mem_or_of_mem_lowerAfter hc with h | h | h
    · exact Code.isWord_ofName _ _ c h
    · exact Code.isWordChar_of_isAlphanumeric (by rw [Text.isAlphanumeric, h, Bool.true_or])
    · rw [h]
      decide
  have hslash : Code.isWordChar '/' = false ∧ Code.isWordChar '\\' = false := by decide
  exact ⟨fun h => Bool.false_ne_true (hslash.1.symm.trans (h ▸ hword)),
    fun h => Bool.false_ne_true (hslash.2.symm.trans (h ▸ hword))⟩

/-- Where an identifier is made of underscores, its segment holds no letters and no digits. -/
theorem not_isAlphanumeric_of_lowered (h : ∀ c ∈ lowered seg, c = '_') :
    ∀ c ∈ seg, Text.isAlphanumeric c = false := by
  have hident := Text.forall_eq_underscore_of_lowerAfter h
  obtain ⟨first, hchars, -⟩ := exists_toList_ofName (String.ofList seg) false
  rw [String.toList_ofList] at hchars
  rw [hchars, List.forall_mem_append] at hident
  have hnil : plain false seg = [] := List.eq_nil_iff_forall_not_mem.mpr fun c hc =>
    underscore_not_mem_plain false seg (hident.2 c hc ▸ hc)
  have hjoined : joinWords false (body seg) = [] := by
    rw [← List.map_eq_nil_iff (f := Text.isAlphanumeric), ← map_isAlphanumeric_raised]
    exact List.map_eq_nil_iff.mpr hnil
  rw [joinWords_eq_nil_iff] at hjoined
  intro c hc
  by_contra hletter
  have hmem := mem_body (Bool.not_eq_false _ ▸ hletter) hc
  exact hletter (hjoined c hmem)

/-! ## Keywords -/

/-- A segment meets a keyword: it begins with a letter and its words, run together and in lower case,
are one, though it does not spell one as it stands. -/
def MeetsKeyword (seg : List Char) : Prop :=
  startsWithLetter seg = true ∧
    String.ofList (Text.lowerAfter [] (plain false seg)) ∈ keywords ∧
    ∀ k ∈ keywords, ¬ Spells seg k.toList

instance (seg : List Char) : Decidable (MeetsKeyword seg) :=
  inferInstanceAs (Decidable (_ ∧ _))

/-- Keywords are words in lower case. -/
theorem isLowerWord_keyword : ∀ k ∈ keywords, IsLowerWord k.toList := by
  decide +kernel

/-- An identifier goes to a keyword in lower case exactly if its segment meets one: a segment that
spells a keyword as it stands is escaped. -/
theorem lowered_mem_keywords_iff (seg : List Char) :
    String.ofList (lowered seg) ∈ keywords ↔ MeetsKeyword seg := by
  -- no keyword begins with an underscore, which an escape and a front put there
  have behind {text : List Char} :
      String.ofList (Text.lowerAfter [] ('_' :: text)) ∉ keywords := by
    intro h
    apply head?_keyword _ h
    rw [String.toList_ofList]
    rfl
  have hname := ofName_eq (String.ofList seg) false
  rw [String.toList_ofList] at hname
  rw [lowered, hname, MeetsKeyword]
  split
  · next hkeyword =>
    simp only [Bool.not_false, Bool.true_and, List.contains_iff_mem] at hkeyword
    have hspells := (unescaped_false_eq_iff (isLowerWord_keyword _ hkeyword)).mp
      String.toList_ofList.symm
    refine iff_of_false ?_ fun h => h.2.2 _ hkeyword hspells
    rw [String.toList_append]
    exact behind
  · next hfree =>
    simp only [Bool.not_false, Bool.true_and, List.contains_iff_mem] at hfree
    have hspells : ∀ k ∈ keywords, ¬ Spells seg k.toList := by
      intro k hk h
      rw [← unescaped_false_eq_iff (isLowerWord_keyword k hk)] at h
      rw [h, String.ofList_toList] at hfree
      exact hfree hk
    rw [String.toList_ofList, unescaped]
    cases hletter : startsWithLetter seg with
    | true =>
      rw [(front_body_of_startsWithLetter hletter).1, List.nil_append]
      exact ⟨fun h => ⟨rfl, h, hspells⟩, fun h => h.2.1⟩
    | false =>
      rw [front_of_not_startsWithLetter hletter]
      exact iff_of_false behind fun h => absurd h.1 Bool.false_ne_true

/-! ## Names -/

/-- A package is named after the last segment, or has the fallback name where the identifier of that
is made of underscores. -/
theorem name_eq (x : String) : name x =
    if (lowered (segment x)).all (· = '_') then fallback
    else String.ofList (lowered (segment x)) := by
  have hlower : Text.lower (ofName (String.ofList (segment x)) false) =
      String.ofList (lowered (segment x)) := rfl
  rw [name, lastSegment_eq]
  dsimp only
  split
  · next hspecial =>
    -- The special segments have no letters, so their identifiers are an underscore.
    have hall : ∀ s ∈ ["", ".", ".."],
        (Text.lowerAfter [] (ofName s false).toList).all (· = '_') = true := by
      decide +kernel
    rw [if_pos]
    simp only [Bool.or_eq_true, decide_eq_true_eq] at hspecial
    exact hall _ (by simpa [or_assoc] using hspecial)
  · rw [hlower, String.toList_ofList]

/-- A package has the fallback name where its segment holds no letters and no digits, or a name that is
not made of underscores. -/
theorem name_cases (x : String) :
    name x = fallback ∧ (∀ c ∈ segment x, Text.isAlphanumeric c = false) ∨
      name x = String.ofList (lowered (segment x)) ∧ ∃ c ∈ lowered (segment x), c ≠ '_' := by
  rw [name_eq]
  split
  · next h => exact .inl ⟨rfl, not_isAlphanumeric_of_lowered (by simpa using h)⟩
  · next h => exact .inr ⟨rfl, by simpa using h⟩

/-- A segment without letters and digits meets no keyword and leaves no marks. -/
theorem unmarked_of_not_isAlphanumeric (h : ∀ c ∈ seg, Text.isAlphanumeric c = false) :
    ¬ MeetsKeyword seg ∧ HasPlainInitials false (String.ofList seg) ∧ 'İ' ∉ seg := by
  have hdotted : 'İ' ∉ seg := fun hmem => by
    have := h 'İ' hmem
    revert this
    decide +kernel
  have hplain : ∀ c ∈ plain false (String.ofList seg).toList, Text.isAlphanumeric c = true := by
    have hbody : ∀ c ∈ body seg, Text.isAlphanumeric c = false :=
      fun c hc => h c (body_subset seg hc)
    rw [String.toList_ofList, plain, joinWords_eq_nil_iff.mpr hbody]
    exact fun c hc => absurd hc List.not_mem_nil
  refine ⟨fun hmeets => ?_, (forall_plain_iff false _).mp hplain, hdotted⟩
  cases seg with
  | nil => cases hmeets.1
  | cons c rest =>
    have hc : Text.isAlphabetic c = true := hmeets.1
    have := h c List.mem_cons_self
    rw [Text.isAlphanumeric, hc] at this
    cases this

/-- A package is named like a keyword exactly if its segment meets one. -/
theorem name_mem_keywords_iff (x : String) : name x ∈ keywords ↔ MeetsKeyword (segment x) := by
  rcases name_cases x with ⟨hname, hblank⟩ | ⟨hname, -⟩
  · rw [hname]
    exact iff_of_false (by decide) (unmarked_of_not_isAlphanumeric hblank).1
  · rw [hname, lowered_mem_keywords_iff]

/-! ## Names of names -/

/-- A name in lower case, without slashes, is its own package name exactly if it is no keyword and is
made of letters and digits behind its front. -/
theorem name_eq_self_iff {n : List Char} (hsplit : front n ++ body n = n)
    (hlower : ∀ c ∈ n, Text.IsLower c) (hslash : ∀ c ∈ n, c ≠ '/' ∧ c ≠ '\\')
    (hword : ∃ c ∈ n, c ≠ '_') :
    name (String.ofList n) = String.ofList n ↔
      String.ofList n ∉ keywords ∧ ∀ c ∈ body n, Text.isAlphanumeric c = true := by
  have hseg : segment (String.ofList n) = n := by
    rw [segment_eq_self, String.toList_ofList]
    rwa [String.toList_ofList]
  have hcapital : 'I' ∉ n ∧ 'İ' ∉ n := by
    have hnot : Text.lowerChar 'I' ≠ ['I'] ∧ Text.lowerChar 'İ' ≠ ['İ'] := by decide +kernel
    exact ⟨fun h => hnot.1 (hlower _ h).stays, fun h => hnot.2 (hlower _ h).stays⟩
  constructor
  · intro h
    constructor
    · -- A keyword spells itself, so it does not meet one.
      intro hkeyword
      have hmeets := (name_mem_keywords_iff _).mp (h.symm ▸ hkeyword)
      rw [hseg] at hmeets
      refine hmeets.2.2 _ hkeyword ?_
      rw [String.toList_ofList]
      exact ⟨List.prefix_rfl, by simp⟩
    · rcases name_cases (String.ofList n) with ⟨hfallback, -⟩ | ⟨hself, -⟩
      · -- The fallback name is a word.
        have hn : n = fallback.toList := by rw [← hfallback, h, String.toList_ofList]
        rw [hn]
        exact List.all_eq_true.mp (by decide +kernel)
      · -- Letters and digits stay at their places, so there was nothing else between them.
        rw [h, hseg] at hself
        obtain ⟨-, before, hbody⟩ := front_body_lowered n
        have hdotted : 'İ' ∉ plain false n := by
          intro hmem
          rcases mem_or_of_mem_plain hmem with hmem | hmem
          · exact hcapital.2 hmem.1
          · exact hmem.2 rfl
        rw [← String.ofList_injective hself] at hbody
        have hclasses := congrArg (List.map Text.isAlphanumeric) hbody
        rw [Text.map_isAlphanumeric_lowerAfter hdotted, plain, map_isAlphanumeric_raised] at hclasses
        exact isAlphanumeric_of_map_joinWords hclasses.symm
  · rintro ⟨hfree, hletters⟩
    have hraised : raised (body n) = body n := by
      rcases raised_eq_self_or (body n) with h | ⟨stem, h, -⟩
      · exact h
      · refine absurd ?_ hcapital.1
        rw [← hsplit, h]
        simp
    have hunescaped : unescaped false n = n := by
      rw [unescaped, plain, joinWords_false_eq_self hletters, hraised, hsplit]
    have hlowered : lowered n = n := by
      have hname := ofName_eq (String.ofList n) false
      rw [String.toList_ofList, hunescaped, if_neg (by simpa using hfree)] at hname
      rw [lowered, hname, String.toList_ofList, Text.lowerAfter_eq_self hlower]
    rw [name_eq, hseg, hlowered, if_neg (by simpa using hword)]

/-- **What a package is named.** The name is never empty, is in lower case and is not made of
underscores alone, and depends only on the last segment of the path that is not empty. It is a
keyword exactly if that segment meets one. It is its own package name exactly if it is no keyword and
no marks are left in it: all raised initials are letters and digits in upper case, and there is no
dotted capital I. -/
theorem package_name_usable_iff (x : String) :
    name x ≠ "" ∧ Text.lower (name x) = name x ∧ (∃ c ∈ (name x).toList, c ≠ '_') ∧
      (∀ y, segment y = segment x → name y = name x) ∧
      (name x ∈ keywords ↔ MeetsKeyword (segment x)) ∧
      (name (name x) = name x ↔ ¬ MeetsKeyword (segment x) ∧
        HasPlainInitials false (String.ofList (segment x)) ∧ 'İ' ∉ segment x) := by
  have hsegment : ∀ y, segment y = segment x → name y = name x := by
    intro y hy
    rw [name_eq, name_eq, hy]
  have hkeyword := name_mem_keywords_iff x
  rcases name_cases x with ⟨hname, hblank⟩ | ⟨hname, hword⟩
  · have hfallback : fallback ≠ "" ∧ Text.lower fallback = fallback ∧
        ('d' ∈ fallback.toList ∧ 'd' ≠ '_') ∧ name fallback = fallback := by
      decide +kernel
    obtain ⟨hne, hlower, hword, hself⟩ := hfallback
    have hunmarked := unmarked_of_not_isAlphanumeric hblank
    rw [hname] at hsegment hkeyword ⊢
    exact ⟨hne, hlower, ⟨'d', hword⟩, hsegment, hkeyword, iff_of_true hself hunmarked⟩
  · have hlower : ∀ c ∈ lowered (segment x), Text.IsLower c := Text.isLower_of_mem_lowerAfter
    rw [hname] at hsegment hkeyword ⊢
    rw [name_eq_self_iff (front_body_lowered _).1 hlower ne_slash_of_mem_lowered hword, hkeyword,
      forall_body_lowered_iff, String.toList_ofList]
    refine ⟨?_, ?_, hword, hsegment, Iff.rfl, Iff.rfl⟩
    · intro hempty
      obtain ⟨c, hc, -⟩ := hword
      rw [← String.toList_ofList (l := lowered (segment x)), hempty] at hc
      cases hc
    · exact Text.lower_lower (ofName (String.ofList (segment x)) false)

/-- A keyword with a capital is not escaped, and goes to lower case all the same; its package name is
not its own. -/
theorem package_name_not_usable_of_capital :
    ¬ ∀ x, name x ∉ keywords ∧ name (name x) = name x := by
  intro usable
  have := usable "Type"
  revert this
  decide +kernel

end QueryBook.Package
