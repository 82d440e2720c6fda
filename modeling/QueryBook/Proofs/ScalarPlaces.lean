import QueryBook.Proofs.BuiltNodes
import QueryBook.Proofs.ContentEvents
import QueryBook.Proofs.ReaderPlaces
import QueryBook.Proofs.TokenPlaces

/-!
# Where the scalars of a document are

The scalars of a document are those that the lexer reads for it. Each has its event, so its lines
are hidden from the search for comments. Scalars and aliases stand where no `#` is but markers.
-/

namespace QueryBook.Document

open Yaml

variable {source : String} {events : List Event} {line column : Nat}

/-- The scalars of the first document of a source: those that the lexer reads, up to the last whose
token is read for the document. -/
def scalars (source : String) : List ScalarReading :=
  let tokens := Yaml.tokens source.toList
  match (EventReader.document (4 * tokens.length + 8)).run { tokens } with
  | some (_, p) =>
    (Lexer.ofSource (source.toList.takeWhile (· ≠ '\x00'))).readings.take
      (tokens.countP (·.isScalar) - p.tokens.countP (·.isScalar))
  | none => []

/-- The lines of a source, with those that the scalars of its first document hide. -/
def margin (source : String) : Margin :=
  marginOf source.toList ((Yaml.events? (Yaml.tokens source.toList)).join.getD [])

/-- The margin of a document that has events. -/
theorem margin_eq (h : Yaml.events? (Yaml.tokens source.toList) = some (some events)) :
    margin source = marginOf source.toList events := by
  rw [margin, h]
  rfl

/-- A line that an event hides cannot be searched for comments. -/
theorem line?_eq_none {e : Event}
    (h : Yaml.events? (Yaml.tokens source.toList) = some (some events)) (he : e ∈ events)
    (hidden : IsHiddenBy (Text.lines source.toList) e line) :
    (margin source).line? line = none := by
  obtain ⟨first, last, hlines, hfirst, hlast⟩ := hidden
  rw [margin_eq h, Margin.line?, if_pos]
  rw [Bool.or_eq_true, Margin.isHidden, List.any_eq_true]
  refine .inr ⟨(first, last), List.mem_filterMap.mpr ⟨e, he, hlines⟩, ?_⟩
  rw [Bool.and_eq_true, decide_eq_true_eq, decide_eq_true_eq]
  exact ⟨hfirst, hlast⟩

/-- A source has events if its tokens are read to them. -/
theorem reads_events (h : Yaml.events? (Yaml.tokens source.toList) = some (some events)) :
    ∃ rest, Reads (Yaml.tokens source.toList) events rest ∧
      scalars source = (Lexer.ofSource (source.toList.takeWhile (· ≠ '\x00'))).readings.take
        ((Yaml.tokens source.toList).countP (·.isScalar) - rest.countP (·.isScalar)) := by
  obtain ⟨⟨_, p⟩, hrun, rfl⟩ := Option.map_eq_some_iff.mp h
  refine ⟨p.tokens, EventReader.ensures_document _ _ _ _ hrun events rfl, ?_⟩
  unfold scalars StateT.run
  dsimp only
  rw [hrun]

/-- Each scalar of a document has an event. -/
theorem event_mem_of_mem_scalars
    (h : Yaml.events? (Yaml.tokens source.toList) = some (some events)) {r : ScalarReading}
    (hr : r ∈ scalars source) : ∃ anchor, r.event anchor ∈ events := by
  obtain ⟨rest, hreads, hscalars⟩ := reads_events h
  obtain ⟨read, htokens, hread⟩ := hreads.scalars
  obtain ⟨more, hprefix⟩ := (places_tokens source.toList).2.1
  -- the scalars of the document are those of the tokens that are read
  have hmap : (scalars source).map (·.token) = read.filter (·.isScalar) := by
    rw [hscalars, List.map_take, ← hprefix, htokens, List.countP_append, Nat.add_sub_cancel,
      List.filter_append, List.append_assoc, List.countP_eq_length_filter, List.take_left]
  have htoken : r.token ∈ read.filter (·.isScalar) := by
    rw [← hmap]
    exact List.mem_map_of_mem hr
  exact hread r.token (List.mem_of_mem_filter htoken) r.style r.text rfl

/-- Behind the scalars of a document their places are known. -/
theorem isBehind_scalars
    (h : Yaml.events? (Yaml.tokens source.toList) = some (some events)) :
    ∃ c, IsBehind (linesOf source.toList) (scalars source) c := by
  obtain ⟨rest, -, hscalars⟩ := reads_events h
  rw [hscalars]
  exact (places_tokens source.toList).2.2 _

/-- Scalars and aliases among the events stand at clear positions. -/
theorem isClear_position (h : Yaml.events? (Yaml.tokens source.toList) = some (some events))
    {e : Event} (he : e ∈ events) (hcontent : e.IsContent) :
    IsClear (linesOf source.toList) e.position := by
  obtain ⟨rest, hreads, -⟩ := reads_events h
  obtain ⟨t, ht, hposition, hkind, -⟩ := hreads.placed e he hcontent
  rw [hposition]
  exact ((places_tokens source.toList).1 t ht).resolve_left hkind

/-- A marker with a scalar on the line behind it is covered by one itself. -/
theorem exists_covers_of_holds
    (h : Yaml.events? (Yaml.tokens source.toList) = some (some events))
    (hmarker : IsMarker (linesOf source.toList) line column) {r : ScalarReading}
    (hr : r ∈ scalars source) {column' : Nat} (hcolumn : column ≤ column')
    (hholds : r.Holds line column') : ∃ r ∈ scalars source, r.Covers line column := by
  obtain ⟨c, hc⟩ := isBehind_scalars h
  have hpast : c.IsPast line column := by
    have hpast' := hc.separates.past line column' ⟨r, hr, hholds⟩
    unfold Cursor.IsPast at hpast' ⊢
    omega
  exact (hc.separates.apart line column hmarker hpast).resolve_right fun hfree =>
    hfree.1 column' hcolumn ⟨r, hr, hholds⟩

/-- A marker on a line that can be searched for comments has no scalar on the line behind it, or it
is itself in a quoted scalar, behind the quote. -/
theorem quoted_of_holds (hreturns : Text.ReturnsEndLines source.toList)
    (h : Yaml.events? (Yaml.tokens source.toList) = some (some events))
    (hmarker : IsMarker (linesOf source.toList) line column)
    (hline : (margin source).line? line ≠ none) {r : ScalarReading} (hr : r ∈ scalars source)
    {column' : Nat} (hcolumn : column ≤ column') (hholds : r.Holds line column') :
    ∃ r ∈ scalars source, r.IsQuoted ∧ r.Holds line column ∧
      ∃ before < column, ∃ quote, (quote = '\'' ∨ quote = '"') ∧
        (Text.lineAt (linesOf source.toList) line)[before]? = some quote := by
  obtain ⟨r', hr', hcovers⟩ := exists_covers_of_holds h hmarker hr hcolumn hholds
  obtain ⟨c, hc⟩ := isBehind_scalars h
  obtain ⟨hin, c', hends⟩ := hc.scalars r' hr'
  obtain ⟨anchor, hevent⟩ := event_mem_of_mem_scalars h hr'
  rcases hends.marker hin hcovers hmarker.1 anchor with ⟨hquoted, hquote⟩ | hhidden
  · exact ⟨r', hr', hquoted, hcovers.2, hquote⟩
  · rw [(linesOf_eq_lines hreturns).1] at hhidden
    exact absurd (line?_eq_none h hevent hhidden) hline

end QueryBook.Document
