import QueryBook.Proofs.ReadBack

/-!
# Scalars behind a key

A text written as a scalar is read back as the value of a key, whatever characters it holds: the
document of the one line is a mapping of one pair, and the value is a scalar with the text. A plain
scalar is written only where it is not taken for a null, so that a value is never lost on the way.
-/

namespace QueryBook

open Text (unlines)
open Yaml

namespace Outline

variable {key : String}

/-- A key and a scalar. -/
def single (key t : String) : Outline := .leaf ⟨0, .empty, key⟩ (.text t) .done

/-- A key and a scalar are written on one line. -/
theorem toList_single (key t : String) :
    (Canonical.scalar key ++ ": " ++ Canonical.scalar t ++ "\n").toList =
      unlines ((single key t).lines 0) := by
  simp [single, lines, Heading.lines, Heading.above, Heading.written, Leaf.inline, Leaf.lines,
    Comment.empty]

/-- The line of a legible key and a scalar is read as a mapping of the two. -/
theorem read_single [Diagnosis] (hkey : (⟨0, .empty, key⟩ : Heading).Legible 0) (t : String) :
    ∃ info keyInfo valueInfo,
      Document.read (Canonical.scalar key ++ ": " ++ Canonical.scalar t ++ "\n") =
        .ok (some (.mapping info
          [(.scalar keyInfo key (.ofStyle (styleOf key)),
            .scalar valueInfo t (.ofStyle (styleOf t)))])) ∧
      keyInfo.position = ⟨1, 1⟩ ∧
      valueInfo.position = ⟨1, (Canonical.scalar key).toList.length + 3⟩ := by
  have hread := read_lines (o := single key t) ⟨hkey, trivial, trivial⟩ nofun (toList_single key t)
  refine ⟨_, _, _, Reading.eq_ok_iff_toOption.mpr hread, ?_, ?_⟩
  · rfl
  · show Heading.valuePosition _ 0 1 = _
    simp [Heading.valuePosition, Heading.height, Heading.written, Comment.empty]

end Outline

/-- The style in which a text is read: plain exactly if it is written plain. -/
def ScalarStyle.written (t : String) : ScalarStyle :=
  if Canonical.isPlainSafe t then .plain else .quoted

/-- **Scalars are read back as values.** Every text, written as a scalar behind `k:` on a line of
its own, is read as the one value of a mapping: a scalar on that line, plain or in quotes as it is
written, whose text is the text. -/
theorem Document.read_keyed_scalar [Diagnosis] (t : String) :
    ∃ info keyInfo valueInfo,
      Document.read ("k: " ++ Canonical.scalar t ++ "\n") =
        .ok (some (.mapping info
          [(.scalar keyInfo "k" .plain, .scalar valueInfo t (.written t))])) ∧
      valueInfo.position = ⟨1, 4⟩ ∧ (Node.scalar valueInfo t (.written t)).text = t := by
  have hkey : Canonical.scalar "k" = "k" := by decide
  have hstyle : ScalarStyle.ofStyle (styleOf t) = .written t := by
    unfold styleOf ScalarStyle.written
    split <;> rfl
  have hlegible : (⟨0, .empty, "k"⟩ : Heading).Legible 0 :=
    ⟨nofun, by decide, fun _ => by decide⟩
  obtain ⟨info, keyInfo, valueInfo, hread, -, hposition⟩ := Outline.read_single hlegible t
  rw [hkey, hstyle] at hread
  refine ⟨info, keyInfo, valueInfo, hread, ?_, ?_⟩
  · rw [hposition, hkey]
    rfl
  · rw [← hstyle]
    exact Node.text_scalar valueInfo t

end QueryBook
