/-!
# Lines of a text

A line ends at a line feed. A carriage return directly before the line feed belongs to the line
end; a text that ends in a line feed has no empty last line.
-/

namespace QueryBook.Text

/-- A line read backwards, without the carriage return that belongs to its end. -/
def closeLine : List Char → List Char
  | '\r' :: before => before.reverse
  | before => before.reverse

/-- The lines of a text, the characters of the line under way being given backwards. -/
def linesFrom (before : List Char) : List Char → List (List Char)
  | [] => if before.isEmpty then [] else [before.reverse]
  | '\n' :: rest => closeLine before :: linesFrom [] rest
  | c :: rest => linesFrom (c :: before) rest

/-- The lines of a text, without their ends. -/
def lines (text : List Char) : List (List Char) := linesFrom [] text

end QueryBook.Text
