import QueryBook.Text.Class
import QueryBook.Text.Pieces

/-!
# Trimming

Blanks are taken off either end of a text.
-/

namespace QueryBook.Text

/-- The characters from the first one that is not a blank. -/
def trimStartChars (cs : List Char) : List Char := cs.dropWhile isBlank

/-- The characters up to the last one that is not a blank. -/
def trimEndChars (cs : List Char) : List Char := dropEndWhile isBlank cs

/-- The characters without the blanks at either end. -/
def trimChars (cs : List Char) : List Char := trimEndChars (trimStartChars cs)

/-- A text without the blanks at either end. -/
def trim (text : String) : String := String.ofList (trimChars text.toList)

/-- A text without the blanks at its end. -/
def trimEnd (text : String) : String := String.ofList (trimEndChars text.toList)

/-- Whether a text holds nothing but blanks. -/
def isAllBlank (text : String) : Bool := text.toList.all isBlank

end QueryBook.Text
