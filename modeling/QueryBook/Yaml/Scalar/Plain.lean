import QueryBook.Yaml.Cursor
import QueryBook.Yaml.Scalar.Folding

/-!
# Plain scalars

A plain scalar has no quotes. It ends before a comment, before a `:` that ends a key, before the
indicators of the flow collection around it and where the indentation ends; a line that continues
it is folded.
-/

namespace QueryBook.Yaml.Plain

/-- Whether a character, with what follows it, goes on with a plain scalar. -/
def continues (inFlow : Bool) (c : Char) (rest : List Char) : Bool :=
  if isWhite c || isBreak c then false
  else if c = ':' then
    !(endsWord rest.head? || (inFlow && rest.head?.any isFlowIndicator))
  else !(inFlow && isFlowIndicator c)

/-- The text of a plain scalar up to the next blank or the end of the scalar. -/
def word (inFlow : Bool) : List Char → List Char
  | [] => []
  | c :: rest => if continues inFlow c rest then c :: word inFlow rest else []

/-- Moves over the blanks and line breaks after a word. A tab in the indentation is only allowed on
a line without text. -/
def skipGap (indent : Int) (gap : Gap) (c : Cursor) : Option (Gap × Cursor) :=
  match _hc : c.rest with
  | [] => some (gap, c)
  | ch :: _ =>
    if isWhite ch then
      if gap.broken && ch = '\t' && (c.column : Int) < indent then
        match _hl : c.skipWhite.skipBlanks true { tab := true } with
        | some (_, c') => if endsLine c'.next? then skipGap indent gap c' else none
        | none => none
      else skipGap indent (gap.white ch) c.skipWhite
    else if isBreak ch then skipGap indent gap.lineBreak c.skipBreak
    else some (gap, c)
termination_by c.rest.length
decreasing_by
  · have h := Cursor.length_skipBlanks_le _hl
    simp only [Cursor.rest_skipWhite, _hc, List.length_drop, List.length_cons] at h
    simp only [_hc, List.length_cons]
    omega
  · simp [_hc]
  · exact Cursor.length_skipBreak_lt (by simp [_hc])

/-- Whether a plain scalar is over at a place, whatever follows. -/
def endsAt (c : Cursor) : Bool := c.atDocumentIndicator || c.next? = some '#'

/-- The words of a plain scalar from a place on, `gap` lying before them. The result ends behind the
blanks after the last word, and says whether a line ended there. -/
def words (inFlow : Bool) (indent : Int) (gap : Gap) (c : Cursor) :
    Option (List Char × Gap × Cursor) :=
  if endsAt c then some ([], gap, c)
  else if inFlow && c.next? = some '-' && c.rest[1]?.any isFlowIndicator then none
  else
    let w := word inFlow c.rest
    if w.isEmpty then some ([], gap, c)
    else
      let c' := c.skip w.length
      match skipGap indent {} c' with
      | none => none
      | some (gap', c'') =>
        if gap' = {} || (!inFlow && (c''.column : Int) < indent) then
          some (gap.text ++ w, gap', c'')
        else if c''.rest.length < c.rest.length then
          (words inFlow indent gap' c'').map fun (text, last, final) =>
            (gap.text ++ w ++ text, last, final)
        else none
termination_by c.rest.length

/-- A plain scalar at a place: its text, whether a line ended behind it, and the place after it. -/
def read (inFlow : Bool) (indent : Int) (c : Cursor) : Option (List Char × Bool × Cursor) :=
  if inFlow && (c.column : Int) < indent then none
  else (words inFlow indent {} c).map fun (text, gap, c') => (text, gap.broken, c')

end QueryBook.Yaml.Plain
