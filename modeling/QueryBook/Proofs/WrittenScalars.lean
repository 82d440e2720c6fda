import QueryBook.Proofs.PlainScalars
import QueryBook.Proofs.QuotedScalars

/-!
# The written form of a text

What a text looks like once it is written, plain or in quotes: it holds no control characters, so it
is one line, and it begins like no gap, comment or directive. Only a plain text can look like the
end of a document at the start of a line.
-/

namespace QueryBook.Yaml

open Canonical

/-- Written text holds no control characters. -/
theorem not_isControl_scalar {text : String} {c : Char} (h : c ∈ (Canonical.scalar text).toList) :
    Text.isControl c = false := by
  unfold Canonical.scalar at h
  split at h
  · next hsafe => exact (plainFrom_of_isPlainSafe hsafe).1.noControl c h
  · rw [Quoted.toList_doubleQuoted, List.mem_append, List.mem_cons, List.mem_singleton,
      List.mem_flatMap] at h
    rcases h with (rfl | ⟨d, -, hd⟩) | rfl
    · decide
    · exact (Quoted.escaping_escapedChar d).not_isControl c hd
    · decide

/-- A written text begins with a character that begins no gap, no comment and no directive. -/
theorem scalar_cons (text : String) : ∃ c cs, (Canonical.scalar text).toList = c :: cs ∧
    isWhite c = false ∧ isBreak c = false ∧ c ∉ ['#', '%', '-'] := by
  unfold Canonical.scalar
  split
  · next h =>
    obtain ⟨hplain, hhead, -⟩ := plainFrom_of_isPlainSafe h
    obtain ⟨c, cs, hc⟩ := List.exists_cons_of_ne_nil hplain.nonempty
    obtain ⟨hwhite, hbreak⟩ :=
      Plain.isWhite_of_not_isControl (hplain.noControl c (by rw [hc]; exact List.mem_cons_self))
    have hind : c ∉ indicators := hhead c (by rw [hc]; rfl)
    refine ⟨c, cs, hc, ?_, hbreak, fun hmem => hind ?_⟩
    · rw [hwhite, decide_eq_false_iff_not]
      rintro rfl
      exact hplain.head_ne_space (by rw [hc]; rfl)
    · revert hmem
      simp only [List.mem_cons, List.not_mem_nil, or_false]
      rintro (rfl | rfl | rfl) <;> decide
  · rw [Quoted.toList_doubleQuoted]
    exact ⟨'"', _, rfl, by decide, by decide, by decide⟩

/-! ## Document indicators -/

/-- Whether a text, written at the start of a line, ends the document. -/
def endsDocument (text : String) : Bool :=
  ['.', '.', '.', ' '].isPrefixOf (Canonical.scalar text).toList

/-- A key at the start of a line is no document indicator unless its text ends the document. -/
theorem atDocumentIndicator_key {c : Cursor} {text : String} {rest : List Char}
    (hrest : c.rest = (Canonical.scalar text).toList ++ ':' :: rest)
    (hdocument : c.column = 0 → endsDocument text = false) : c.atDocumentIndicator = false := by
  have hcontrol : ∀ d ∈ (Canonical.scalar text).toList, Text.isControl d = false :=
    fun _ => not_isControl_scalar
  obtain ⟨x, xs, hx, -, -, hstart⟩ := scalar_cons text
  rw [Cursor.atDocumentIndicator, Bool.and_eq_false_imp, decide_eq_true_eq]
  intro hc
  have hd := hdocument hc
  rw [endsDocument] at hd
  rw [hx] at hrest hd hcontrol
  have hdash : x ≠ '-' := by
    rintro rfl
    exact hstart (by decide)
  refine Bool.or_eq_false_iff.mpr ⟨by simp [Cursor.startsTriple, hrest, hdash], ?_⟩
  -- Only behind a fourth character of the text can there be a blank.
  unfold Cursor.startsTriple
  rw [hrest]
  rcases xs with - | ⟨y, - | ⟨z, - | ⟨w, tail⟩⟩⟩
  · simp
  · simp
  · simp [endsWord, isWhite, isBreak]
  · obtain ⟨hw, hb⟩ := Plain.isWhite_of_not_isControl (hcontrol w (by simp))
    simp only [List.isPrefixOf, Bool.and_true, Bool.and_eq_false_imp, beq_iff_eq,
      beq_eq_false_iff_ne] at hd
    simp only [List.cons_append, List.take_succ_cons, List.take_zero, endsWord, hw, hb,
      List.getElem?_cons_succ, List.getElem?_cons_zero, Bool.or_false, Bool.and_eq_false_imp,
      beq_iff_eq, List.cons.injEq, decide_eq_false_iff_not]
    rintro ⟨rfl, rfl, rfl, -⟩ rfl
    exact hd rfl rfl rfl rfl

end QueryBook.Yaml
