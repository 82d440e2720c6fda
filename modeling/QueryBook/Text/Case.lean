import QueryBook.Text.Class
import QueryBook.Text.Table.Upper
import QueryBook.Text.Table.Lower

/-!
# Upper and lower case

Unicode's full case mappings. One character may map to several (`ß` to `SS`), and the lower-case
form of `Σ` at the end of a word is `ς`.
-/

namespace QueryBook.Text

/-- The image of a code point under a mapping given by expansions and runs. -/
def mapCodePoint (expansions : List (Nat × List Nat)) (runs : List Table.CaseRun) (n : Nat) :
    List Nat :=
  match expansions.lookup n with
  | some image => image
  | none =>
    match runs.find? (·.covers n) with
    | some run => [run.image n]
    | none => [n]

/-- The upper-case form of a character. -/
def upperChar (c : Char) : List Char :=
  (mapCodePoint Table.upperExpansions Table.upperRuns c.toNat).map Char.ofNat

/-- The lower-case form of a character, taken alone. -/
def lowerChar (c : Char) : List Char :=
  (mapCodePoint Table.lowerExpansions Table.lowerRuns c.toNat).map Char.ofNat

/-- Whether the first character that is not case-ignorable is a cased one. -/
def meetsCased (cs : List Char) : Bool :=
  match cs.dropWhile isCaseIgnorable with
  | [] => false
  | c :: _ => isCased c

/-- Lower case, `before` being the characters already passed, nearest first: a capital sigma after
a letter and before none is the last of its word. -/
def lowerAfter (before : List Char) : List Char → List Char
  | [] => []
  | c :: rest =>
    let image :=
      if c = 'Σ' then
        if meetsCased before && !meetsCased rest then ['ς'] else ['σ']
      else lowerChar c
    image ++ lowerAfter (c :: before) rest

/-- The lower-case form of a text. -/
def lower (text : String) : String := String.ofList (lowerAfter [] text.toList)

end QueryBook.Text
