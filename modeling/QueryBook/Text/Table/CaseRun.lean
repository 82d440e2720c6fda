/-!
# Runs of a case mapping

Case mappings move whole stretches of an alphabet by one distance. A run records such a stretch:
its first and last code point, the step between its members and the image of the first.
-/

namespace QueryBook.Text.Table

/-- A stretch of code points that a case mapping moves by one distance. -/
structure CaseRun where
  /-- The first code point of the run. -/
  first : Nat
  /-- The last code point of the run. -/
  last : Nat
  /-- The distance between neighbours of the run: 1, or 2 where the two cases alternate. -/
  stride : Nat
  /-- The image of the first code point. -/
  target : Nat

namespace CaseRun

/-- Whether a code point belongs to the run. -/
def covers (r : CaseRun) (n : Nat) : Bool :=
  r.first ≤ n && n ≤ r.last && (n - r.first) % r.stride == 0

/-- The image of a code point of the run. -/
def image (r : CaseRun) (n : Nat) : Nat :=
  r.target + (n - r.first)

end CaseRun

end QueryBook.Text.Table
