import QueryBook.Text.Lines
import QueryBook.Text.Trim

/-!
# Comments around a node

Comments are no part of the document tree; they are found again in the lines of the source. A
`Margin` holds those lines and knows which of them lie inside scalars, where `#` is text.
-/

namespace QueryBook

/-- The lines of a source, and the stretches of lines that belong to scalars. -/
structure Margin where
  /-- The lines of the source. -/
  lines : List (List Char)
  /-- Stretches of lines, first and last counted from 1, where no comment can be. -/
  hidden : List (Nat × Nat)

namespace Margin

/-- Whether a line lies inside a scalar. -/
def isHidden (m : Margin) (line : Nat) : Bool :=
  m.hidden.any fun (first, last) => first ≤ line && line ≤ last

/-- The line of a number, counted from 1, if comments can be on it. -/
def line? (m : Margin) (line : Nat) : Option (List Char) :=
  if line = 0 || m.isHidden line then none else m.lines[line - 1]?

/-! ## Comments above -/

/-- Whether a line holds a comment and nothing else. -/
def isCommentLine (text : List Char) : Bool := (Text.trimChars text).head? = some '#'

/-- The comment lines that end at a line number, without a gap. -/
def commentsUpTo (m : Margin) : Nat → List (List Char)
  | 0 => []
  | line + 1 =>
    match m.line? (line + 1) with
    | some text =>
      if isCommentLine text then m.commentsUpTo line ++ [Text.trimChars text] else []
    | none => []

/-- The raw comment directly above a node that is the first on its line. -/
def head (m : Margin) (line column : Nat) : String :=
  match m.line? line with
  | some text =>
    if (text.take (column - 1)).all Text.isBlank then
      String.ofList (List.intercalate ['\n'] (m.commentsUpTo (line - 1)))
    else ""
  | none => ""

/-! ## Comments behind -/

/-- Whether a quote after this character opens a quoted scalar; inside a word it does not. -/
def opensQuote (previous : Char) : Bool :=
  Text.isBlank previous || previous = '[' || previous = '{' || previous = ',' || previous = ':'

/-- The text from the first marker that follows a blank and is in no quotes; `quote?` is the quote
that is open and `previous` the character passed last. -/
def findMarker (quote? : Option Char) (previous : Char) : List Char → List Char
  | [] => []
  | c :: rest =>
    match quote? with
    | some quote => findMarker (if c = quote then none else some quote) c rest
    | none =>
      if (c = '"' || c = '\'') && opensQuote previous then findMarker (some c) c rest
      else if c = '#' && Text.isBlank previous then c :: rest
      else findMarker none c rest

/-- The raw comment behind a node on its line. -/
def trailing (m : Margin) (line column : Nat) : String :=
  match m.line? line with
  | some text =>
    String.ofList (Text.trimEndChars (findMarker none ' ' (text.drop (column - 1))))
  | none => ""

end Margin

end QueryBook
