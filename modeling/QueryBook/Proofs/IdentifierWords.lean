import QueryBook.Accessor.Identifier
import QueryBook.Proofs.UpperCase

/-!
# Words of names

An identifier is made of the words of a name, its stretches of letters and digits, run together, each
with its initial in upper case but for the first one of a name that is not exported. An underscore
stands in front unless the name begins with a letter, and a final `Id` is raised.
-/

namespace QueryBook.Identifier

/-! ## Words -/

/-- The words of a name: the stretches of letters and digits between other characters, some of them
empty. -/
def words (name : List Char) : List (List Char) := name.splitOnP fun c => !Text.isAlphanumeric c

/-- A word with its initial in upper case. -/
def capitalized : List Char → List Char
  | [] => []
  | c :: rest => Text.upperChar c ++ rest

/-- The words of a name, each with its initial in upper case, run together. -/
def capitals (name : List Char) : List Char := (words name).flatMap capitalized

/-- Whether a name begins with a letter. -/
def startsWithLetter (name : List Char) : Bool := name.head?.any Text.isAlphabetic

/-- A text with a final `Id` written `ID`. -/
def raised (text : List Char) : List Char := (raiseId text.reverse).reverse

/-- A letter or a digit belongs to the first word. -/
theorem words_cons_of_alphanumeric {c : Char} (h : Text.isAlphanumeric c = true)
    (rest : List Char) : words (c :: rest) = (words rest).modifyHead (c :: ·) := by
  unfold words
  rw [List.splitOnP_cons_eq_if_modifyHead, if_neg (by simp [h])]

/-- Another character ends the first word. -/
theorem words_cons_of_not_alphanumeric {c : Char} (h : Text.isAlphanumeric c = false)
    (rest : List Char) : words (c :: rest) = [] :: words rest := by
  unfold words
  rw [List.splitOnP_cons_eq_if_modifyHead, if_pos (by simp [h])]

/-- Words are run together with initials in upper case; within a word the first stays as it is. -/
theorem joinWords_eq (name : List Char) : joinWords true name = capitals name ∧
    ∃ word rest, words name = word :: rest ∧
      joinWords false name = word ++ rest.flatMap capitalized := by
  induction name with
  | nil => exact ⟨rfl, [], [], rfl, rfl⟩
  | cons c name ih =>
    obtain ⟨upper, word, rest, hwords, within⟩ := ih
    cases hc : Text.isAlphanumeric c with
    | true =>
      have first : words (c :: name) = (c :: word) :: rest := by
        rw [words_cons_of_alphanumeric hc, hwords, List.modifyHead_cons]
      refine ⟨?_, c :: word, rest, first, ?_⟩
      · rw [joinWords, if_pos hc, within, capitals, first, List.flatMap_cons, capitalized, cased,
          if_pos rfl, List.append_assoc]
      · rw [joinWords, if_pos hc, within]
        rfl
    | false =>
      have first := words_cons_of_not_alphanumeric hc name
      refine ⟨?_, [], words name, first, ?_⟩
      · rw [joinWords, if_neg (by simp [hc]), upper, capitals, capitals, first, List.flatMap_cons]
        rfl
      · rw [joinWords, if_neg (by simp [hc]), upper]
        rfl

/-- The underscore is neither a letter nor a digit. -/
theorem isAlphanumeric_underscore : Text.isAlphanumeric '_' = false := by
  rfl

/-- Words that are run together hold no underscore. -/
theorem underscore_not_mem_joinWords (upper : Bool) (name : List Char) :
    '_' ∉ joinWords upper name := by
  induction name generalizing upper with
  | nil => exact List.not_mem_nil
  | cons c name ih =>
    rw [joinWords]
    split
    · next hc =>
      have ne : c ≠ '_' := by
        rintro rfl
        rw [isAlphanumeric_underscore] at hc
        cases hc
      rw [List.mem_append, not_or]
      refine ⟨?_, ih false⟩
      cases upper with
      | true =>
        intro h
        rcases Text.eq_or_of_mem_upperChar h with hc | ⟨h, -⟩
        · exact ne hc.symm
        · exact absurd h (by decide)
      | false => exact fun h => ne (List.mem_singleton.mp h).symm
    · exact ih true

/-! ## The beginning of an identifier -/

/-- What stands in front of the words: an underscore, unless the name begins with a letter. -/
def front (name : List Char) : List Char := if startsWithLetter name then [] else ['_']

/-- A name without the character in front, if that is neither a letter nor a digit. -/
def body : List Char → List Char
  | [] => []
  | c :: rest => if Text.isAlphanumeric c then c :: rest else rest

/-- A name that begins with something else stands behind an underscore. -/
theorem front_of_not_startsWithLetter {name : List Char} (h : startsWithLetter name = false) :
    front name = ['_'] := by
  rw [front, h, if_neg Bool.false_ne_true]

/-- A name that begins with a letter stands without an underscore. -/
theorem front_body_of_startsWithLetter {name : List Char} (h : startsWithLetter name = true) :
    front name = [] ∧ body name = name := by
  refine ⟨by rw [front, if_pos h], ?_⟩
  cases name with
  | nil => rfl
  | cons c rest =>
    have hc : Text.isAlphabetic c = true := h
    rw [body, if_pos (by rw [Text.isAlphanumeric, hc, Bool.true_or])]

/-- The body of a name is in the name. -/
theorem body_subset (name : List Char) : body name ⊆ name := by
  cases name with
  | nil => exact List.Subset.refl _
  | cons c rest =>
    rw [body]
    split
    · exact List.Subset.refl _
    · exact List.subset_cons_self c rest

/-- Letters and digits of a name are in its body. -/
theorem mem_body {name : List Char} {c : Char} (hc : Text.isAlphanumeric c = true) (h : c ∈ name) :
    c ∈ body name := by
  cases name with
  | nil => cases h
  | cons d rest =>
    rw [body]
    split
    · exact h
    · next hd => exact (List.mem_cons.mp h).resolve_left fun heq => hd (heq ▸ hc)

/-- A name is run together behind its front. -/
theorem joined_eq (exported : Bool) (name : List Char) :
    joined exported name = front name ++ joinWords exported (body name) := by
  cases name with
  | nil => rfl
  | cons c rest =>
    rw [joined]
    by_cases hu : c = '_'
    · have hletter : startsWithLetter ('_' :: rest) = false :=
        (Bool.or_eq_false_iff.mp isAlphanumeric_underscore).1
      rw [if_pos hu, hu, front, hletter, body, isAlphanumeric_underscore]
      rfl
    · rw [if_neg hu]
      cases ha : Text.isAlphabetic c with
      | true =>
        have hletter : startsWithLetter (c :: rest) = true := ha
        obtain ⟨hfront, hbody⟩ := front_body_of_startsWithLetter hletter
        rw [hfront, hbody]
        rfl
      | false =>
        have hfront : front (c :: rest) = ['_'] := by
          rw [front, if_neg]
          show ¬Text.isAlphabetic c = true
          simp [ha]
        rw [if_neg (by simp), hfront, body]
        split <;> rfl

/-- What stands in front does not matter where the first word is raised as well. -/
theorem joinWords_body (name : List Char) : joinWords true (body name) = joinWords true name := by
  cases name with
  | nil => rfl
  | cons c rest =>
    rw [body]
    split
    · rfl
    · next hc => rw [joinWords, if_neg hc]

/-! ## The end of an identifier -/

/-- A final `Id` is raised behind an underscore as without it. -/
theorem raised_cons (text : List Char) : raised ('_' :: text) = '_' :: raised text := by
  -- The underscore in front ends the reversed text, and only its first two characters are looked at.
  have step (reversed : List Char) : raiseId (reversed ++ ['_']) = raiseId reversed ++ ['_'] := by
    match reversed with
    | [] => rfl
    | [c] => simp [raiseId]
    | c :: c' :: rest =>
      by_cases h : c = 'd' ∧ c' = 'I'
      · rw [h.1, h.2]
        rfl
      · have stays (tail : List Char) : raiseId (c :: c' :: tail) = c :: c' :: tail := by
          unfold raiseId
          split
          · next heq =>
            cases heq
            exact absurd ⟨rfl, rfl⟩ h
          · rfl
        rw [List.cons_append, List.cons_append, stays, stays]
        rfl
  rw [raised, List.reverse_cons, step, List.reverse_append]
  rfl

/-- Raising a final `Id` adds no underscore. -/
theorem underscore_not_mem_raised {text : List Char} (h : '_' ∉ text) : '_' ∉ raised text := by
  have hr : '_' ∉ raiseId text.reverse := by
    have hreverse : '_' ∉ text.reverse := by simpa using h
    unfold raiseId
    split
    · next before heq =>
      rw [heq] at hreverse
      simpa using hreverse
    · exact hreverse
  simpa [raised] using hr

/-- A final `Id` is raised behind the front of a name as without it. -/
theorem raised_front (name text : List Char) :
    raised (front name ++ text) = front name ++ raised text := by
  unfold front
  split
  · rfl
  · exact raised_cons text

end QueryBook.Identifier
