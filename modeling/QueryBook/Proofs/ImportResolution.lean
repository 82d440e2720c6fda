import Mathlib.Data.List.TakeWhile
import Mathlib.Data.Set.Function
import QueryBook.Proofs.ImportNames

/-!
# Resolution of imports

The qualifiers in a type are the identifiers that stand directly before a dot and not behind a
character of a word, from left to right. Resolving queries gives the imports of all their qualifiers,
one import for each, if the table knows them all; else it fails at the first one that the table does
not know.
-/

namespace QueryBook

/-! ## Qualifiers in a type -/

namespace Qualifier

variable {afterWord : Bool} {text before : List Char} {qualifier : String}

/-- An identifier of ASCII letters, digits and underscores. -/
def IsIdentifier (text : List Char) : Prop :=
  ∃ c rest, text = c :: rest ∧ isStart c = true ∧ ∀ d ∈ rest, isPart d = true

/-- A qualifier stands in a text behind some characters: it is an identifier directly before a dot, and
the character in front of it is none of a word. `afterWord` says what is in front of the text. -/
structure Stands (afterWord : Bool) (text before : List Char) (qualifier : String) : Prop where
  identifier : IsIdentifier qualifier.toList
  text : ∃ after, text = before ++ qualifier.toList ++ '.' :: after
  apart : (before.getLast?.map Text.isWord).getD afterWord = false

/-- What a qualifier begins with is a character of it. -/
theorem isPart_of_isStart {c : Char} (h : isStart c = true) : isPart c = true := by
  simp only [isStart, isPart, Char.isAlphanum, Bool.or_eq_true] at h ⊢
  exact h.imp_left .inl

/-- Characters of qualifiers are characters of words. -/
theorem isWord_of_isPart {c : Char} (h : isPart c = true) : Text.isWord c = true := by
  have checked : ∀ n < 128, isPart (Char.ofNat n) = true → Text.isWord (Char.ofNat n) = true := by
    decide +kernel
  have hcode : c.toNat < 128 := by
    have bounded {last : UInt32} (hc : c.val ≤ last) (hlast : last.toNat < 128) : c.toNat < 128 :=
      Nat.lt_of_le_of_lt (UInt32.le_iff_toNat_le.mp hc) hlast
    change (((c.isUpper || c.isLower) || c.isDigit) || decide (c = '_')) = true at h
    simp only [Bool.or_eq_true, decide_eq_true_eq] at h
    rcases h with ((hupper | hlower) | hdigit) | rfl
    · exact bounded (of_decide_eq_true hupper).2 (by decide)
    · exact bounded (of_decide_eq_true (Bool.and_eq_true_iff.mp hlower).2) (by decide)
    · exact bounded (of_decide_eq_true (Bool.and_eq_true_iff.mp hdigit).2) (by decide)
    · decide
  have := checked c.toNat hcode
  rw [Char.ofNat_toNat] at this
  exact this h

/-- The qualifier that a text begins with. -/
def first? (afterWord : Bool) : List Char → Option String
  | [] => none
  | c :: rest =>
    if isStart c && !afterWord && (rest.dropWhile isPart).head? = some '.' then
      some (String.ofList (c :: rest.takeWhile isPart))
    else none

/-- The qualifiers of a text, each with the characters in front of it. -/
def places (afterWord : Bool) : List Char → List (List Char × String)
  | [] => []
  | c :: rest => (first? afterWord (c :: rest)).toList.map ([], ·) ++
      (places (Text.isWord c) rest).map fun p => (c :: p.1, p.2)

/-- An identifier under way is a qualifier if a dot ends it. -/
theorem scan_some (before : List Char) (afterWord : Bool) (text : List Char) :
    scan (some before) afterWord text =
      (if (text.dropWhile isPart).head? = some '.'
        then [String.ofList (before.reverse ++ text.takeWhile isPart)] else []) ++
        scan none true text := by
  induction text generalizing before afterWord with
  | nil => rfl
  | cons c rest ih =>
    -- Behind a character of a word no qualifier begins, so the rest is read without it.
    have hrest : scan none true (c :: rest) = scan none (Text.isWord c) rest := by
      rw [scan, if_neg (by simp)]
    rw [scan, hrest]
    by_cases hc : isPart c = true
    · rw [if_pos hc, ih, List.dropWhile_cons_of_pos hc, List.takeWhile_cons_of_pos hc,
        isWord_of_isPart hc, List.reverse_cons, List.append_assoc, List.singleton_append]
    · rw [if_neg hc, List.dropWhile_cons_of_neg hc, List.takeWhile_cons_of_neg hc, List.head?_cons]
      by_cases hdot : c = '.'
      · have hword : Text.isWord '.' = false := by decide +kernel
        rw [hdot, if_pos rfl, if_pos rfl, hword, List.append_nil, List.singleton_append]
      · rw [if_neg hdot, if_neg (by simpa using hdot), List.nil_append]

/-- The scan finds the qualifiers at their places. -/
theorem scan_eq (afterWord : Bool) (text : List Char) :
    scan none afterWord text = (places afterWord text).map (·.2) := by
  induction text generalizing afterWord with
  | nil => rfl
  | cons c rest ih =>
    have hrest : ((places (Text.isWord c) rest).map fun p => (c :: p.1, p.2)).map (·.2) =
        scan none (Text.isWord c) rest := by
      rw [ih, List.map_map]
      rfl
    rw [places, List.map_append, hrest, scan, first?]
    by_cases hstart : (isStart c && !afterWord) = true
    · rw [if_pos hstart, scan_some, hstart, Bool.true_and]
      rw [Bool.and_eq_true] at hstart
      rw [isWord_of_isPart (isPart_of_isStart hstart.1)]
      by_cases hdot : (rest.dropWhile isPart).head? = some '.'
      · rw [if_pos hdot, if_pos (by simpa using hdot)]
        rfl
      · rw [if_neg hdot, if_neg (by simpa using hdot)]
        rfl
    · rw [if_neg hstart, if_neg fun h => hstart (Bool.and_eq_true .. ▸ h).1]
      rfl

/-- A text begins with a qualifier exactly if one stands in front. -/
theorem first?_eq_some : first? afterWord text = some qualifier ↔
    Stands afterWord text [] qualifier := by
  constructor
  · intro h
    cases text with
    | nil => cases h
    | cons c rest =>
      rw [first?] at h
      split at h
      · next hq =>
        simp only [Bool.and_eq_true, Bool.not_eq_true', decide_eq_true_eq] at hq
        obtain ⟨⟨hstart, hword⟩, hdot⟩ := hq
        obtain ⟨after, hafter⟩ := List.head?_eq_some_iff.mp hdot
        have htext : c :: rest = (c :: rest.takeWhile isPart) ++ '.' :: after := by
          rw [← hafter, List.cons_append, List.takeWhile_append_dropWhile]
        cases h
        refine ⟨⟨c, rest.takeWhile isPart, String.toList_ofList, hstart, ?_⟩, ⟨after, ?_⟩, hword⟩
        · exact fun d hd => List.mem_takeWhile_imp hd
        · rwa [String.toList_ofList, List.nil_append]
      · cases h
  · rintro ⟨⟨c, rest, hq, hstart, hrest⟩, ⟨after, rfl⟩, hword⟩
    have hword : afterWord = false := hword
    have hdot : isPart '.' = false := by decide
    rw [List.nil_append, hq, List.cons_append, first?, hstart, hword,
      List.dropWhile_append_of_pos hrest, List.takeWhile_append_of_pos hrest,
      List.dropWhile_cons_of_neg (by simp [hdot]), List.takeWhile_cons_of_neg (by simp [hdot]),
      if_pos (by simp), List.append_nil, ← hq, String.ofList_toList]

theorem stands_cons {c d : Char} : Stands afterWord (c :: text) (d :: before) qualifier ↔
    d = c ∧ Stands (Text.isWord c) text before qualifier := by
  have hapart : (((d :: before).getLast?.map Text.isWord).getD afterWord) =
      (before.getLast?.map Text.isWord).getD (Text.isWord d) := by
    rw [List.getLast?_cons]
    cases before.getLast? <;> rfl
  constructor
  · rintro ⟨hidentifier, ⟨after, htext⟩, hword⟩
    obtain ⟨rfl, hrest⟩ := List.cons.inj htext
    exact ⟨rfl, hidentifier, ⟨after, hrest⟩, hapart ▸ hword⟩
  · rintro ⟨rfl, hidentifier, ⟨after, rfl⟩, hword⟩
    exact ⟨hidentifier, ⟨after, rfl⟩, hapart ▸ hword⟩

/-- The places are those where qualifiers stand. -/
theorem mem_places : (before, qualifier) ∈ places afterWord text ↔
    Stands afterWord text before qualifier := by
  induction text generalizing afterWord before with
  | nil =>
    constructor
    · intro h
      cases h
    · rintro ⟨-, ⟨after, htext⟩, -⟩
      exact absurd htext.symm (by simp)
  | cons c rest ih =>
    rw [places, List.mem_append]
    cases before with
    | nil =>
      rw [← first?_eq_some]
      simp
    | cons d before =>
      rw [stands_cons, ← ih]
      simp [and_comm, eq_comm]

/-- The places ascend. -/
theorem pairwise_places (afterWord : Bool) (text : List Char) :
    (places afterWord text).Pairwise fun p p' => p.1.length < p'.1.length := by
  induction text generalizing afterWord with
  | nil => exact .nil
  | cons c rest ih =>
    rw [places, List.pairwise_append]
    refine ⟨?_, List.pairwise_map.mpr ((ih (Text.isWord c)).imp Nat.succ_lt_succ), ?_⟩
    · cases first? afterWord (c :: rest) with
      | none => exact .nil
      | some q => exact List.pairwise_singleton _ _
    · intro p hp p' hp'
      obtain ⟨q, -, rfl⟩ := List.mem_map.mp hp
      obtain ⟨r, -, rfl⟩ := List.mem_map.mp hp'
      exact Nat.succ_pos _

/-- The qualifiers of a type are those that stand in it. -/
theorem mem_ofType {type : String} :
    qualifier ∈ ofType type ↔ ∃ before, Stands false type.toList before qualifier := by
  rw [ofType, scan_eq, List.mem_map]
  constructor
  · rintro ⟨⟨before, q⟩, hmem, rfl⟩
    exact ⟨before, mem_places.mp hmem⟩
  · rintro ⟨before, h⟩
    exact ⟨_, mem_places.mpr h, rfl⟩

end Qualifier

/-! ## The first item of a list -/

section First

variable {α β : Type} {P : α → Prop}

/-- The first item of a list that has a property. -/
def IsFirst (P : α → Prop) (l : List α) (a : α) : Prop :=
  ∃ before after, l = before ++ a :: after ∧ (∀ b ∈ before, ¬ P b) ∧ P a

/-- The first item behind a head is the head, if that has the property, else the first one of the
tail. -/
theorem isFirst_cons {a b : α} {l : List α} :
    IsFirst P (b :: l) a ↔ (a = b ∧ P b) ∨ ¬ P b ∧ IsFirst P l a := by
  constructor
  · rintro ⟨before, after, h, hbefore, ha⟩
    cases before with
    | nil =>
      obtain ⟨rfl, rfl⟩ := List.cons.inj h
      exact .inl ⟨rfl, ha⟩
    | cons c before =>
      obtain ⟨rfl, rfl⟩ := List.cons.inj h
      rw [List.forall_mem_cons] at hbefore
      exact .inr ⟨hbefore.1, before, after, rfl, hbefore.2, ha⟩
  · rintro (⟨rfl, ha⟩ | ⟨hb, before, after, rfl, hbefore, ha⟩)
    · exact ⟨[], l, rfl, nofun, ha⟩
    · exact ⟨b :: before, after, rfl, List.forall_mem_cons.mpr ⟨hb, hbefore⟩, ha⟩

theorem not_isFirst_nil {a : α} : ¬ IsFirst P [] a := by
  rintro ⟨before, after, h, -⟩
  exact absurd h.symm (by simp)

/-- The first item is one of the list. -/
theorem IsFirst.exists_mem {l : List α} {a : α} (h : IsFirst P l a) : ∃ b ∈ l, P b := by
  obtain ⟨before, after, rfl, -, ha⟩ := h
  exact ⟨a, by simp, ha⟩

theorem isFirst_append {l l' : List α} {a : α} :
    IsFirst P (l ++ l') a ↔ IsFirst P l a ∨ (∀ b ∈ l, ¬ P b) ∧ IsFirst P l' a := by
  induction l with
  | nil => simp [not_isFirst_nil]
  | cons b l ih =>
    rw [List.cons_append, isFirst_cons, ih, isFirst_cons, List.forall_mem_cons]
    tauto

/-- The first item of lists put together is the first one of the first list that has one. -/
theorem isFirst_flatMap {P : β → Prop} {g : α → List β} {l : List α} {b : β} :
    IsFirst P (l.flatMap g) b ↔ ∃ a, IsFirst (fun a => ∃ c ∈ g a, P c) l a ∧ IsFirst P (g a) b := by
  induction l with
  | nil => simp [not_isFirst_nil]
  | cons a l ih =>
    have hnone : (∀ c ∈ g a, ¬ P c) ↔ ¬ ∃ c ∈ g a, P c := by simp
    rw [List.flatMap_cons, isFirst_append, hnone]
    constructor
    · rintro (h | ⟨hnone, h⟩)
      · exact ⟨a, isFirst_cons.mpr (.inl ⟨rfl, h.exists_mem⟩), h⟩
      · obtain ⟨a', ha', hb⟩ := ih.mp h
        exact ⟨a', isFirst_cons.mpr (.inr ⟨hnone, ha'⟩), hb⟩
    · rintro ⟨a', ha', hb⟩
      rcases isFirst_cons.mp ha' with ⟨rfl, -⟩ | ⟨hnone, ha'⟩
      · exact .inl hb
      · exact .inr ⟨hnone, ih.mpr ⟨a', ha', hb⟩⟩

theorem isFirst_map {P : β → Prop} {g : α → β} {l : List α} {b : β} :
    IsFirst P (l.map g) b ↔ ∃ a, IsFirst (fun a => P (g a)) l a ∧ g a = b := by
  induction l with
  | nil => simp [not_isFirst_nil]
  | cons a l ih =>
    rw [List.map_cons, isFirst_cons, ih]
    simp only [isFirst_cons]
    constructor
    · rintro (⟨rfl, ha⟩ | ⟨ha, a', ha', rfl⟩)
      · exact ⟨a, .inl ⟨rfl, ha⟩, rfl⟩
      · exact ⟨a', .inr ⟨ha, ha'⟩, rfl⟩
    · rintro ⟨a', ⟨rfl, ha⟩ | ⟨ha, ha'⟩, rfl⟩
      · exact .inl ⟨rfl, ha⟩
      · exact .inr ⟨ha, a', ha', rfl⟩

/-- In a list that ascends, the first item is the one that comes before all others. -/
theorem isFirst_iff_of_pairwise {r : α → α → Prop} {l : List α} (h : l.Pairwise r)
    (asymm : ∀ a b, r a b → ¬ r b a) {a : α} :
    IsFirst P l a ↔ a ∈ l ∧ P a ∧ ∀ b ∈ l, P b → ¬ r b a := by
  constructor
  · rintro ⟨before, after, rfl, hbefore, ha⟩
    obtain ⟨-, hafter, -⟩ := List.pairwise_append.mp h
    refine ⟨by simp, ha, fun b hb hPb hba => ?_⟩
    rcases List.mem_append.mp hb with hb | hb
    · exact hbefore b hb hPb
    · rcases List.mem_cons.mp hb with rfl | hb
      · exact asymm b b hba hba
      · exact asymm b a hba ((List.pairwise_cons.mp hafter).1 b hb)
  · rintro ⟨hmem, ha, hleast⟩
    obtain ⟨before, after, rfl⟩ := List.append_of_mem hmem
    refine ⟨before, after, rfl, fun b hb hPb => ?_, ha⟩
    exact hleast b (List.mem_append_left _ hb) hPb
      ((List.pairwise_append.mp h).2.2 b hb a List.mem_cons_self)

end First

/-! ## Resolution -/

namespace ImportTable

variable {t : ImportTable} {queries : List Query}

/-- A qualifier is used in queries if it stands in the type of one of their fields. -/
def IsUsed (queries : List Query) (qualifier : String) : Prop :=
  ∃ q ∈ queries, ∃ f ∈ q.params.list ++ q.out.list, ∃ before,
    Qualifier.Stands false f.type.toList before qualifier

/-- Whether a qualifier stands in the type of a field that the table does not know. -/
def HasUnknown (t : ImportTable) (f : Field) : Prop :=
  ∃ before qualifier, Qualifier.Stands false f.type.toList before qualifier ∧
    t.get? qualifier = none

/-- The first unknown qualifier: it stands in the first field that has one, parameters before result
fields, of the first query that has one, and unknown ones of its type do not stand before it. -/
structure IsFirstUnknown (t : ImportTable) (queries : List Query) (q : Query) (f : Field)
    (qualifier : String) : Prop where
  query : IsFirst (fun q => ∃ f ∈ q.params.list ++ q.out.list, t.HasUnknown f) queries q
  field : IsFirst t.HasUnknown (q.params.list ++ q.out.list) f
  place : ∃ before, Qualifier.Stands false f.type.toList before qualifier ∧
    t.get? qualifier = none ∧ ∀ before' qualifier',
      Qualifier.Stands false f.type.toList before' qualifier' → t.get? qualifier' = none →
        before.length ≤ before'.length

/-- What the imports of queries are: ascending by path and name, without duplicates, one for each
qualifier, with its path and with its name unless that is the last segment of the path. The names by
which they are used are the qualifiers, one for each. -/
structure AreImports (t : ImportTable) (queries : List Query) (imports : ImportSet) : Prop where
  known : ∀ qualifier, IsUsed queries qualifier → (t.get? qualifier).isSome
  ascending : imports.list.Pairwise fun a b => a.before b
  mem_iff : ∀ i, i ∈ imports.list ↔ ∃ qualifier, IsUsed queries qualifier ∧
    t.get? qualifier = some i.path ∧
    i.localName = if (Text.splitOnChar '/' i.path.toList).getLast? = some qualifier.toList
      then "" else qualifier
  distinct : imports.list.Nodup
  bijective : Set.BijOn Import.boundName {i | i ∈ imports.list} {name | IsUsed queries name}

/-- The qualifiers that are scanned are those that are used. -/
theorem mem_qualifiersOf_iff {qualifier : String} :
    qualifier ∈ qualifiersOf queries ↔ IsUsed queries qualifier := by
  simp only [mem_qualifiersOf, Qualifier.mem_ofType]
  rfl

/-- The import of a qualifier. -/
theorem importOf_eq_some {qualifier : String} {i : Import} :
    t.importOf qualifier = some i ↔ t.get? qualifier = some i.path ∧
      i.localName = if (Text.splitOnChar '/' i.path.toList).getLast? = some qualifier.toList
        then "" else qualifier := by
  have hlast (path : String) :
      ((Text.splitOnChar '/' path.toList).getLast?).getD [] = qualifier.toList ↔
        (Text.splitOnChar '/' path.toList).getLast? = some qualifier.toList := by
    rw [List.getLast?_eq_some_getLast (Text.splitOnChar_ne_nil _ _), Option.getD_some,
      Option.some.injEq]
  rw [importOf, Option.map_eq_some_iff]
  constructor
  · rintro ⟨path, hpath, rfl⟩
    exact ⟨hpath, if_congr (hlast path) rfl rfl⟩
  · rintro ⟨hpath, hname⟩
    refine ⟨i.path, hpath, ?_⟩
    cases i with
    | mk path name => exact congrArg (Import.mk path) ((if_congr (hlast path) rfl rfl).trans hname.symm)

/-- Imports that serve the qualifiers of queries are those of the queries. -/
theorem Serves.areImports {imports : ImportSet} (h : Serves t (qualifiersOf queries) imports) :
    AreImports t queries imports := by
  have known : ∀ qualifier, IsUsed queries qualifier → (t.get? qualifier).isSome := by
    intro qualifier hq
    have := h.known qualifier (mem_qualifiersOf_iff.mpr hq)
    rwa [importOf, Option.isSome_map] at this
  have nonempty : ∀ qualifier ∈ qualifiersOf queries, qualifier ≠ "" := by
    intro qualifier hq
    obtain ⟨q, -, f, -, hf⟩ := mem_qualifiersOf.mp hq
    exact Qualifier.ne_empty_of_mem_ofType hf
  have names := h.nodup_boundNames nonempty
  refine ⟨known, h.ascending, fun i => ?_, names.of_map _, ?_, ?_, ?_⟩
  · simp only [h.mem_iff, mem_qualifiersOf_iff, importOf_eq_some]
  · intro i hi
    exact mem_qualifiersOf_iff.mp ((h.mem_boundNames nonempty).mp (List.mem_map_of_mem hi))
  · intro i hi j hj hij
    exact List.inj_on_of_nodup_map names hi hj hij
  · intro name hname
    have hmem := (h.mem_boundNames nonempty).mpr (mem_qualifiersOf_iff.mpr hname)
    exact List.mem_map.mp hmem

/-- Queries have one set of imports. -/
theorem AreImports.unique {imports imports' : ImportSet} (h : AreImports t queries imports)
    (h' : AreImports t queries imports') : imports = imports' := by
  have same : imports.list.Perm imports'.list := by
    rw [List.perm_ext_iff_of_nodup h.distinct h'.distinct]
    intro i
    rw [h.mem_iff, h'.mem_iff]
  have hlist : imports.list = imports'.list := by
    refine same.eq_of_pairwise ?_ h.ascending h'.ascending
    intro a b _ _ hab hba
    exact absurd (Import.before_trans hab hba) (Import.not_before_self a)
  exact congrArg ImportSet.mk hlist

/-- Resolving fails exactly at the first use of a qualifier that the table does not know. -/
theorem resolve_eq_error {e : SchemaError} : t.resolve queries = .error e ↔
    ∃ u, IsFirst (fun u => t.get? u.qualifier = none) (queries.flatMap QualifierUse.ofQuery) u ∧
      e = u.unknown := by
  have fails {s : ImportSet} {u : QualifierUse} :
      t.resolveUse s u = .error e ↔ t.get? u.qualifier = none ∧ u.unknown = e := by
    unfold resolveUse
    cases t.get? u.qualifier <;> simp
  rw [resolve, Reading.foldlM_eq_error]
  constructor
  · rintro ⟨before, u, after, s, huses, hbefore, hu⟩
    obtain ⟨hunknown, rfl⟩ := fails.mp hu
    refine ⟨u, ⟨before, after, huses, fun w hw hnone => ?_, hunknown⟩, rfl⟩
    have := exists_foldlM_resolveUse.mp ⟨s, hbefore⟩ w hw
    rw [hnone] at this
    cases this
  · rintro ⟨u, ⟨before, after, huses, hbefore, hunknown⟩, rfl⟩
    have hknown : ∀ w ∈ before, (t.get? w.qualifier).isSome := by
      intro w hw
      exact Option.isSome_iff_ne_none.mpr (hbefore w hw)
    obtain ⟨s, hs⟩ := exists_foldlM_resolveUse.mpr hknown
    exact ⟨before, u, after, s, huses, hs, fails.mpr ⟨hunknown, rfl⟩⟩

/-- The first unknown qualifier of a type is the one that no other stands before. -/
theorem isFirst_ofType {type qualifier : String} :
    IsFirst (fun n => t.get? n = none) (Qualifier.ofType type) qualifier ↔
      ∃ before, Qualifier.Stands false type.toList before qualifier ∧ t.get? qualifier = none ∧
        ∀ before' qualifier', Qualifier.Stands false type.toList before' qualifier' →
          t.get? qualifier' = none → before.length ≤ before'.length := by
  have ascending := Qualifier.pairwise_places false type.toList
  have asymm : ∀ p p' : List Char × String, p.1.length < p'.1.length → ¬ p'.1.length < p.1.length :=
    fun _ _ => Nat.lt_asymm
  rw [Qualifier.ofType, Qualifier.scan_eq, isFirst_map]
  simp only [isFirst_iff_of_pairwise ascending asymm, Prod.exists, Prod.forall, Qualifier.mem_places,
    Nat.not_lt]
  constructor
  · rintro ⟨before, name, ⟨hstands, hunknown, hleast⟩, rfl⟩
    exact ⟨before, hstands, hunknown, hleast⟩
  · rintro ⟨before, hstands, hunknown, hleast⟩
    exact ⟨before, qualifier, ⟨hstands, hunknown, hleast⟩, rfl⟩

/-- The first use of an unknown qualifier is that of the first unknown qualifier. -/
theorem isFirst_uses {u : QualifierUse} :
    IsFirst (fun u => t.get? u.qualifier = none) (queries.flatMap QualifierUse.ofQuery) u ↔
      ∃ q, IsFirstUnknown t queries q u.field u.qualifier ∧ u.query = q.name := by
  -- the uses are listed by query, by field and by qualifier: the first one is found level by level
  have field_iff (q : Query) (f : Field) :
      (∃ u ∈ (Qualifier.ofType f.type).map fun qualifier =>
        ({ qualifier, field := f, query := q.name } : QualifierUse), t.get? u.qualifier = none) ↔
        t.HasUnknown f := by
    simp only [List.mem_map, exists_exists_and_eq_and, Qualifier.mem_ofType, HasUnknown]
    constructor
    · rintro ⟨qualifier, ⟨before, hstands⟩, hunknown⟩
      exact ⟨before, qualifier, hstands, hunknown⟩
    · rintro ⟨before, qualifier, hstands, hunknown⟩
      exact ⟨qualifier, ⟨before, hstands⟩, hunknown⟩
  have query_iff (q : Query) : (∃ u ∈ QualifierUse.ofQuery q, t.get? u.qualifier = none) ↔
      ∃ f ∈ q.params.list ++ q.out.list, t.HasUnknown f := by
    simp only [← field_iff q, QualifierUse.ofQuery, List.mem_flatMap]
    constructor
    · rintro ⟨u, ⟨f, hf, hu⟩, hunknown⟩
      exact ⟨f, hf, u, hu, hunknown⟩
    · rintro ⟨f, hf, u, hu, hunknown⟩
      exact ⟨u, ⟨f, hf, hu⟩, hunknown⟩
  rw [isFirst_flatMap]
  simp only [query_iff]
  constructor
  · rintro ⟨q, hq, hu⟩
    rw [QualifierUse.ofQuery, isFirst_flatMap] at hu
    simp only [field_iff] at hu
    obtain ⟨f, hf, hu⟩ := hu
    obtain ⟨qualifier, hfirst, rfl⟩ := isFirst_map.mp hu
    exact ⟨q, ⟨hq, hf, isFirst_ofType.mp hfirst⟩, rfl⟩
  · rintro ⟨q, ⟨hq, hf, hplace⟩, hname⟩
    refine ⟨q, hq, ?_⟩
    rw [QualifierUse.ofQuery, isFirst_flatMap]
    simp only [field_iff]
    refine ⟨u.field, hf, isFirst_map.mpr ⟨u.qualifier, isFirst_ofType.mpr hplace, ?_⟩⟩
    rw [← hname]

/-- **Resolution is exact.** Resolving queries gives a set of imports exactly if it holds the imports of
all their qualifiers, so there is one exactly if the table knows all these. Else resolving fails, and
the error is that of the first unknown qualifier, at its field and in its query. -/
theorem import_resolution_exact (t : ImportTable) (queries : List Query) :
    (∀ imports, t.resolve queries = .ok imports ↔ AreImports t queries imports) ∧
      ((∃ imports, t.resolve queries = .ok imports) ↔
        ∀ qualifier, IsUsed queries qualifier → (t.get? qualifier).isSome) ∧
      ∀ e, t.resolve queries = .error e ↔ ∃ q f qualifier,
        IsFirstUnknown t queries q f qualifier ∧
          e.problem = .unknownQualifier qualifier f.name ∧
          e.problem.kind = .unresolvedPrefix ∧ e.position = f.position ∧ e.query = q.name := by
  have succeeds : (∃ imports, t.resolve queries = .ok imports) ↔
      ∀ qualifier, IsUsed queries qualifier → (t.get? qualifier).isSome := by
    have used (qualifier : String) : (∃ u ∈ queries.flatMap QualifierUse.ofQuery,
        u.qualifier = qualifier) ↔ IsUsed queries qualifier := by
      rw [← mem_qualifiersOf_iff, qualifiersOf, List.mem_map]
    rw [exists_resolve]
    simp only [← used]
    constructor
    · rintro h qualifier ⟨u, hu, rfl⟩
      exact h u hu
    · exact fun h u hu => h u.qualifier ⟨u, hu, rfl⟩
  refine ⟨fun imports => ⟨fun h => (serves_of_resolve h).areImports, fun h => ?_⟩, succeeds,
    fun e => ?_⟩
  · obtain ⟨imports', hresolve⟩ := succeeds.mpr h.known
    rw [hresolve, h.unique (serves_of_resolve hresolve).areImports]
  · rw [resolve_eq_error]
    simp only [isFirst_uses]
    constructor
    · rintro ⟨u, ⟨q, hfirst, hname⟩, rfl⟩
      exact ⟨q, u.field, u.qualifier, hfirst, rfl, rfl, rfl, hname⟩
    · rintro ⟨q, f, qualifier, hfirst, hproblem, -, hposition, hquery⟩
      refine ⟨⟨qualifier, f, q.name⟩, ⟨q, hfirst, rfl⟩, ?_⟩
      cases e with
      | mk problem position query =>
        cases hproblem
        cases hposition
        cases hquery
        rfl

end ImportTable

end QueryBook
