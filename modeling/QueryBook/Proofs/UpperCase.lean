import QueryBook.Text.Case
import Mathlib.Data.List.Basic

/-!
# Upper case

What the upper-case form of a character is made of. Its first character is a letter or the character
itself, and is its own upper-case form: an initial that is in upper case stays as it is. Of the ASCII
characters the form holds none but capitals, unless the character is one of the others. The facts
about the tables are checked on whole sets of code points at once.
-/

namespace QueryBook.Text

/-! ## Sets of code points -/

/-- Listed code points as a number that has a bit for each of them. -/
def bits (ns : List Nat) : Nat := ns.foldr (fun n set => 1 <<< n ||| set) 0

/-- A bit is set exactly if its code point is listed. -/
theorem testBit_bits {ns : List Nat} {n : Nat} : (bits ns).testBit n = true ↔ n ∈ ns := by
  induction ns with
  | nil => simp [bits]
  | cons m ns ih =>
    rw [bits, List.foldr_cons, Nat.testBit_or, Nat.one_shiftLeft, Nat.testBit_two_pow,
      Bool.or_eq_true, decide_eq_true_eq, List.mem_cons, ← ih, eq_comm]
    rfl

/-- The code points of ascending ranges as such a number. -/
def rangeBits : List (Nat × Nat) → Nat
  | [] => 0
  | (low, high) :: rest => ((1 <<< (high + 1) - 1 ||| rangeBits rest) >>> low) <<< low

/-- A bit is set exactly if its code point lies in the ranges. -/
theorem testBit_rangeBits (ranges : List (Nat × Nat)) (n : Nat) :
    (rangeBits ranges).testBit n = inRanges ranges n := by
  induction ranges with
  | nil => simp [rangeBits, inRanges]
  | cons r rest ih =>
    obtain ⟨low, high⟩ := r
    rw [rangeBits, inRanges, Nat.testBit_shiftLeft, Nat.testBit_shiftRight, Nat.testBit_or,
      Nat.one_shiftLeft, Nat.testBit_two_pow_sub_one]
    by_cases h : low ≤ n
    · have hlt : decide (n < high + 1) = decide (n ≤ high) := decide_eq_decide.mpr Nat.lt_succ_iff
      rw [Nat.add_sub_of_le h, ih, hlt]
    · simp [h]

/-- The code points of a run. -/
def Table.CaseRun.members (r : CaseRun) : List Nat :=
  List.range' r.first ((r.last - r.first) / r.stride + 1) r.stride

/-- A run covers its code points only. -/
theorem Table.CaseRun.mem_members {r : CaseRun} {n : Nat} (h : r.covers n = true) :
    n ∈ r.members := by
  simp only [covers, Bool.and_eq_true, decide_eq_true_eq, beq_iff_eq] at h
  obtain ⟨⟨hfirst, hlast⟩, hstep⟩ := h
  have hcount := Nat.div_le_div_right (c := r.stride) (Nat.sub_le_sub_right hlast r.first)
  rw [members, List.mem_range']
  refine ⟨(n - r.first) / r.stride, by omega, ?_⟩
  rw [Nat.mul_div_cancel' (Nat.dvd_of_mod_eq_zero hstep)]
  omega

/-- A code point of one set is not in another, if the sets share none. -/
theorem not_mem_of_bits {ns ms : List Nat} {n : Nat} (h : bits ns &&& bits ms = 0) (hn : n ∈ ns) :
    n ∉ ms := by
  intro hm
  have hbit := congrArg (Nat.testBit · n) h
  rw [Nat.testBit_and, testBit_bits.mpr hn, testBit_bits.mpr hm, Nat.zero_testBit] at hbit
  cases hbit

/-- A code point of a set lies in the ranges that hold the set. -/
theorem inRanges_of_bits {ns : List Nat} {ranges : List (Nat × Nat)} {n : Nat}
    (h : bits ns &&& rangeBits ranges = bits ns) (hn : n ∈ ns) : inRanges ranges n = true := by
  have hbit := congrArg (Nat.testBit · n) h
  rw [Nat.testBit_and, testBit_bits.mpr hn, Bool.true_and, testBit_rangeBits] at hbit
  exact hbit

/-- The code points that a mapping changes others to. -/
def images (expansions : List (Nat × List Nat)) (runs : List Table.CaseRun) : List Nat :=
  expansions.flatMap (·.2) ++ runs.flatMap fun r => r.members.map r.image

/-- What a code point is mapped to is the code point itself or one of these. -/
theorem eq_or_mem_of_mem_mapCodePoint {expansions : List (Nat × List Nat)}
    {runs : List Table.CaseRun} {m n : Nat} (h : m ∈ mapCodePoint expansions runs n) :
    m = n ∨ m ∈ images expansions runs := by
  unfold mapCodePoint at h
  split at h
  · next image hlookup =>
    obtain ⟨before, after, hsplit, -⟩ := List.lookup_eq_some_iff.mp hlookup
    have hmem : (n, image) ∈ expansions := by
      rw [hsplit]
      exact List.mem_append_right _ List.mem_cons_self
    exact .inr (List.mem_append_left _ (List.mem_flatMap_of_mem hmem h))
  · split at h
    · next run hfind =>
      have hcovers := List.find?_some hfind
      have hmember := Table.CaseRun.mem_members hcovers
      rw [List.mem_singleton.mp h]
      exact .inr (List.mem_append_right _ (List.mem_flatMap_of_mem
        (List.mem_of_find?_eq_some hfind) (List.mem_map_of_mem hmember)))
    · exact .inl (List.mem_singleton.mp h)

/-! ## What upper case yields -/

/-- The code point of a character that is given by its code point. -/
theorem toNat_ofNat {n : Nat} (h : n.isValidChar) : (Char.ofNat n).toNat = n := by
  rw [Char.ofNat, dif_pos h]
  rfl

/-- The images are code points of characters. Of the ASCII characters only capitals are among them,
and the dotted capital I is not. -/
theorem upperImages_checked : ∀ n ∈ images Table.upperExpansions Table.upperRuns,
    (n < 0xD800 ∨ 0xDFFF < n ∧ n < 0x110000) ∧ (n < 128 → 65 ≤ n ∧ n ≤ 90) ∧ n ≠ 'İ'.toNat := by
  decide +kernel

/-- So the upper-case form of a character holds no other ASCII characters and no dotted capital I,
unless the character is one of these. -/
theorem eq_or_of_mem_upperChar {c d : Char} (h : d ∈ upperChar c) :
    d = c ∨ (d.isUpper = true ∨ 128 ≤ d.toNat) ∧ d ≠ 'İ' := by
  obtain ⟨n, hn, rfl⟩ := List.mem_map.mp h
  rcases eq_or_mem_of_mem_mapCodePoint hn with rfl | himage
  · exact .inl (Char.ofNat_toNat c)
  · obtain ⟨hvalid, hcapital, hdotted⟩ := upperImages_checked n himage
    have hcode := toNat_ofNat hvalid
    refine .inr ⟨?_, fun h => hdotted (by rw [← h, hcode])⟩
    by_cases hascii : n < 128
    · obtain ⟨hlow, hhigh⟩ := hcapital hascii
      refine .inl (decide_eq_true (And.intro ?_ ?_))
      · exact UInt32.le_iff_toNat_le.mpr (Nat.le_trans hlow (Nat.le_of_eq hcode.symm))
      · exact UInt32.le_iff_toNat_le.mpr (Nat.le_trans (Nat.le_of_eq hcode) hhigh)
    · exact .inr (by rw [hcode]; omega)

/-! ## Initials -/

/-- The code points that upper case changes. -/
def upperDomain : List Nat :=
  Table.upperExpansions.map (·.1) ++ Table.upperRuns.flatMap (·.members)

/-- The first code points of what it changes them to. -/
def upperHeads : List Nat :=
  Table.upperExpansions.map (fun e => e.2.headD e.1) ++
    Table.upperRuns.flatMap fun r => r.members.map r.image

/-- None of them is changed again, and all are letters and code points of characters. -/
theorem upperHeads_checked : bits upperHeads &&& bits upperDomain = 0 ∧
    bits upperHeads &&& rangeBits Table.alphabetic = bits upperHeads ∧
      ∀ n ∈ upperHeads, n < 0xD800 ∨ 0xDFFF < n ∧ n < 0x110000 := by
  decide +kernel

theorem upperExpansions_ne_nil : ∀ e ∈ Table.upperExpansions, e.2 ≠ [] := by
  decide

/-- A code point stays as it is, or is one of those that are changed and gets one of the heads. -/
theorem mapCodePoint_upper (n : Nat) :
    (mapCodePoint Table.upperExpansions Table.upperRuns n = [n]) ∨
      n ∈ upperDomain ∧ ∃ head ∈ upperHeads, ∃ more,
        mapCodePoint Table.upperExpansions Table.upperRuns n = head :: more := by
  unfold mapCodePoint
  cases hlookup : Table.upperExpansions.lookup n with
  | some image =>
    obtain ⟨before, after, hsplit, -⟩ := List.lookup_eq_some_iff.mp hlookup
    have hmem : (n, image) ∈ Table.upperExpansions := by
      rw [hsplit]
      exact List.mem_append_right _ List.mem_cons_self
    obtain ⟨head, more, rfl⟩ := List.exists_cons_of_ne_nil (upperExpansions_ne_nil _ hmem)
    exact .inr ⟨List.mem_append_left _ (List.mem_map_of_mem hmem), head,
      List.mem_append_left _ (List.mem_map_of_mem hmem), more, rfl⟩
  | none =>
    cases hfind : Table.upperRuns.find? (·.covers n) with
    | none => exact .inl rfl
    | some run =>
      have hrun := List.mem_of_find?_eq_some hfind
      have hcovers := List.find?_some hfind
      have hmember := Table.CaseRun.mem_members hcovers
      exact .inr ⟨List.mem_append_right _ (List.mem_flatMap_of_mem hrun hmember), _,
        List.mem_append_right _ (List.mem_flatMap_of_mem hrun (List.mem_map_of_mem hmember)), [],
        rfl⟩

/-- The heads stay as they are. -/
theorem mapCodePoint_of_mem_upperHeads {n : Nat} (h : n ∈ upperHeads) :
    mapCodePoint Table.upperExpansions Table.upperRuns n = [n] := by
  rcases mapCodePoint_upper n with hn | ⟨hn, -⟩
  · exact hn
  · exact absurd hn (not_mem_of_bits upperHeads_checked.1 h)

/-- The upper-case form of a character begins with a letter or with the character itself, and what it
begins with is in upper case. -/
theorem exists_upperChar (c : Char) : ∃ initial more, upperChar c = initial :: more ∧
    (isAlphabetic initial = true ∨ initial = c) ∧ upperChar initial = [initial] := by
  rcases mapCodePoint_upper c.toNat with hc | ⟨-, head, hhead, more, hc⟩
  · have hsame : upperChar c = [c] := by
      rw [upperChar, hc, List.map_singleton, Char.ofNat_toNat]
    exact ⟨c, [], hsame, .inr rfl, hsame⟩
  · have hcode : (Char.ofNat head).toNat = head := by
      have hvalid : head.isValidChar := upperHeads_checked.2.2 head hhead
      rw [Char.ofNat, dif_pos hvalid]
      rfl
    refine ⟨Char.ofNat head, more.map Char.ofNat, ?_, .inl ?_, ?_⟩
    · rw [upperChar, hc, List.map_cons]
    · rw [isAlphabetic, hcode, inRanges_of_bits upperHeads_checked.2.1 hhead]
    · rw [upperChar, hcode, mapCodePoint_of_mem_upperHeads hhead, List.map_singleton]

end QueryBook.Text
