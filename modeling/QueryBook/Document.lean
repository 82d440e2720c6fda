import QueryBook.Node.Builder
import QueryBook.Yaml.Event.Reader
import QueryBook.Yaml.Token.Scan

/-!
# Documents

Reading the first document of a source into a tree. Comments are found in the lines of the source;
lines that belong to a scalar of several lines are hidden from that search. Which sources are
well-formed is settled here; where and why a scanner refuses another one is its own affair.
-/

namespace QueryBook

/-! ## Malformed sources -/

/-- Where a scanner stops in a source that it refuses, and why. -/
structure ScanFailure where
  /-- The line, from 1. -/
  line : Nat
  /-- The column, from 0. -/
  column : Nat
  /-- The words of the scanner. -/
  reason : String
  line_pos : 0 < line

/-- The error of a document that is refused, at the place where the scanner stops. -/
def ScanFailure.error (f : ScanFailure) : SchemaError :=
  { problem := @Problem.malformedDocument f.reason, position := ⟨f.line, f.column + 1⟩ }

/-- What a scanner says of malformed sources. -/
class Diagnosis where
  failure (source : String) : ScanFailure

/-- A scanner that says nothing in particular, at the beginning of a source. -/
instance Diagnosis.plain : Diagnosis where
  failure _ := { line := 1, column := 0, reason := "malformed source", line_pos := Nat.one_pos }

namespace Document

open Yaml (Event EventKind)

/-! ## Lines of scalars -/

/-- Whether a line belongs to a block indented by a number of spaces: it is blank or indented as
much. -/
def isInBlock (indent : Nat) (line : List Char) : Bool :=
  line.all Text.isBlank || indent ≤ (line.takeWhile (· = ' ')).length

/-- The lines of a block scalar that starts at a position: its first line and all after it that
belong to the block. A block without text has none. -/
def blockLines? (lines : List (List Char)) (position : Position) (text : String) :
    Option (Nat × Nat) :=
  if Text.isAllBlank text then none
  else
    let more := (lines.drop position.line).takeWhile (isInBlock (position.column - 1))
    some (position.line, position.line + more.length)

/-- Whether a line, from inside a quoted scalar on, holds the closing quote. In single quotes two
quotes are text, in double quotes a backslash takes the next character with it. -/
def closesQuote (single : Bool) : List Char → Bool
  | [] => false
  | '\'' :: '\'' :: rest => closesQuote single rest
  | '\\' :: c :: rest => if single then closesQuote single (c :: rest) else closesQuote single rest
  | c :: rest => c = (if single then '\'' else '"') || closesQuote single rest

/-- The number of the first line that closes a quoted scalar, counted from 0, or the number of
lines. -/
def closingLine (single : Bool) (lines : List (List Char)) : Nat :=
  lines.findIdx (closesQuote single)

/-- The lines of a quoted scalar after the one it starts on. -/
def quotedLines (lines : List (List Char)) (position : Position) (single : Bool) : Nat × Nat :=
  let rest := (lines.drop (position.line - 1)).modifyHead (·.drop position.column)
  let last := position.line + closingLine single rest
  (position.line + 1, min last lines.length)

/-- The lines that an event hides from the search for comments. -/
def hiddenLines? (lines : List (List Char)) (e : Event) : Option (Nat × Nat) :=
  match e.kind with
  | .scalar text .literal _ | .scalar text .folded _ => blockLines? lines e.position text
  | .scalar _ .singleQuoted _ => some (quotedLines lines e.position true)
  | .scalar _ .doubleQuoted _ => some (quotedLines lines e.position false)
  | _ => none

/-- The lines of a source, with those that its scalars hide. -/
def marginOf (source : List Char) (events : List Event) : Margin :=
  let lines := Text.lines source
  { lines, hidden := events.filterMap (hiddenLines? lines) }

/-! ## Reading -/

/-- The tree of the first document of a source; `none` if there is no document. -/
def read [Diagnosis] (source : String) : Except SchemaError (Option Node) :=
  let text := source.toList
  let tokens := Yaml.tokens text
  match Yaml.events? tokens with
  | none => .error (Diagnosis.failure source).error
  | some none => .ok none
  | some (some events) =>
    (Node.ofEvents? (tokens.filterMap (·.anchorName?)) (marginOf text events) events).map some

/-- A malformed document is reported where the scanner stopped, which is a place in a document, with
the words of the scanner for a cause. -/
theorem read_of_malformed [Diagnosis] {source : String}
    (h : Yaml.events? (Yaml.tokens source.toList) = none) :
    ∃ e, read source = .error e ∧ e.position.isKnown = true ∧
      e.problem.cause? = some (Diagnosis.failure source).reason := by
  refine ⟨(Diagnosis.failure source).error, ?_, decide_eq_true (Diagnosis.failure source).line_pos,
    rfl⟩
  unfold read
  dsimp only
  rw [h]

end Document

end QueryBook
