import QueryBook.Proofs.FirstError
import QueryBook.Proofs.ScalarPlaces

/-!
# Where comments are

A comment begins at its marker and ends its line. Where a comment begins for the reader, too, no
character of it belongs to a scalar unless the marker does, up to where the line of the reader ends.

In a source with plain blanks every comment begins so. The comment above a node then has no character
that belongs to a scalar. The comment behind it has one exactly if the search for a marker does not
see the quotes that the marker is in: it counts quotes from the node on, whatever they stand for.
-/

namespace QueryBook

open Yaml

variable {lines : List (List Char)} {line column : Nat}

/-! ## Places of comments -/

/-- The place where a comment of a node begins. The comment behind the node is what its line ends
with, blanks aside; the lines of the comment above are those directly above the line of the node. -/
inductive Node.CommentBegins (lines : List (List Char)) (n : Node) : Nat → Nat → Prop
  | behind {text : List Char} (has : n.info.lineComment ≠ "")
    (line : lines[n.position.line - 1]? = some text) :
    CommentBegins lines n n.position.line
      ((Text.trimEndChars text).length - n.info.lineComment.length)
  | above {text : List Char} {line : Nat} (has : n.info.headComment ≠ "")
    (first : n.position.line ≤ line + (Text.lines n.info.headComment.toList).length)
    (last : line < n.position.line) (shown : lines[line - 1]? = some text) :
    CommentBegins lines n line (text.takeWhile Text.isBlank).length

/-- Whether the character at a place of the lines that are searched belongs to a scalar. -/
def Yaml.ScalarReading.HoldsAt (lines : List (List Char)) (r : ScalarReading) (line column : Nat) :
    Prop :=
  r.Holds (readerLine lines line column) (readerColumn lines line column)

/-- Whether a comment that begins for the reader at a place goes on to a later one. It begins with a
`#` at the beginning of its line or behind a space, a tab or a carriage return, and goes on to the
next carriage return. -/
structure CommentReaches (lines : List (List Char)) (line column column' : Nat) : Prop where
  later : column < column'
  marker : (Text.lineAt lines line)[column]? = some '#'
  start : column = 0 ∨ ∃ ch, (Text.lineAt lines line)[column - 1]? = some ch ∧
    (isWhite ch = true ∨ ch = '\r')
  unbroken : ∀ i, column ≤ i → i < column' → (Text.lineAt lines line)[i]? ≠ some '\r'

namespace Document

/-- Whether no comment of a node has a character that belongs to a scalar of the document. -/
def CommentsApart (source : String) (n : Node) : Prop :=
  ∀ line column, n.CommentBegins (Text.lines source.toList) line column →
    ∀ r ∈ scalars source, ∀ column' ≥ column, ¬ r.HoldsAt (Text.lines source.toList) line column'

/-- Whether no scalar of the document has the character that a comment of a node begins with, or a
later one to which no comment goes on from there for the reader. -/
def BeginsApart (source : String) (n : Node) : Prop :=
  ∀ line column, n.CommentBegins (Text.lines source.toList) line column →
    ∀ r ∈ scalars source, ∀ column' ≥ column,
      ¬ CommentReaches (Text.lines source.toList) line column column' →
        ¬ r.HoldsAt (Text.lines source.toList) line column'

/-- Whether the lines and blanks of a source are to the search for comments what they are to the
reader: carriage returns are only at the ends of lines, and a `#` behind a blank is behind a space
or a tab. -/
structure HasPlainBlanks (source : String) : Prop where
  returns : Text.ReturnsEndLines source.toList
  markers : ∀ text ∈ Text.lines source.toList,
    text.IsChain fun ch next => next = '#' → Text.isBlank ch = true → isWhite ch = true

end Document

/-! ## The search for a marker -/

namespace Margin

/-- The quote that the search for a marker takes for open behind a text. -/
def openQuote (quote? : Option Char) (previous : Char) : List Char → Option Char
  | [] => quote?
  | c :: rest =>
    match quote? with
    | some quote => openQuote (if c = quote then none else some quote) c rest
    | none =>
      openQuote (if (c = '"' || c = '\'') && opensQuote previous then some c else none) c rest

variable {quote? : Option Char} {previous : Char} {text before rest : List Char} {m : Margin}

/-- What is found begins with a marker behind a blank, where no quote is taken for open. -/
theorem exists_of_findMarker_ne_nil (h : findMarker quote? previous text ≠ []) :
    ∃ before rest, findMarker quote? previous text = '#' :: rest ∧ text = before ++ '#' :: rest ∧
      Text.isBlank (before.getLast?.getD previous) = true ∧
        openQuote quote? previous before = none := by
  induction text generalizing quote? previous with
  | nil => exact absurd rfl h
  | cons c text ih =>
    -- what is found further on is found behind one character more
    have hcons {next? : Option Char} (hne : findMarker next? c text ≠ [])
        (hnext : ∀ before, openQuote quote? previous (c :: before) = openQuote next? c before) :
        ∃ before rest, findMarker next? c text = '#' :: rest ∧ c :: text = before ++ '#' :: rest ∧
          Text.isBlank (before.getLast?.getD previous) = true ∧
            openQuote quote? previous before = none := by
      obtain ⟨before, rest, hfound, htext, hblank, hopen⟩ := ih hne
      refine ⟨c :: before, rest, hfound, by rw [htext]; rfl, ?_, by rw [hnext, hopen]⟩
      rwa [List.getLast?_cons]
    cases quote? with
    | some quote => exact hcons h fun _ => rfl
    | none =>
      rw [findMarker] at h ⊢
      split at h
      · next hquote =>
        rw [if_pos hquote]
        exact hcons h fun before => by rw [openQuote, if_pos hquote]
      · next hquote =>
        rw [if_neg hquote]
        split at h
        · next hmarker =>
          rw [if_pos hmarker]
          rw [Bool.and_eq_true, decide_eq_true_eq] at hmarker
          exact ⟨[], text, by rw [hmarker.1], by rw [hmarker.1]; rfl, hmarker.2, rfl⟩
        · next hmarker =>
          rw [if_neg hmarker]
          exact hcons h fun before => by rw [openQuote, if_neg hquote]

/-- A marker behind a blank is found, or one before it, where no quote is taken for open. -/
theorem suffix_findMarker (hblank : Text.isBlank (before.getLast?.getD previous) = true)
    (hopen : openQuote quote? previous before = none) :
    '#' :: rest <:+ findMarker quote? previous (before ++ '#' :: rest) := by
  induction before generalizing quote? previous with
  | nil =>
    obtain rfl : quote? = none := hopen
    have hblank : Text.isBlank previous = true := hblank
    have hfound : findMarker none previous ('#' :: rest) = '#' :: rest := by
      rw [findMarker, if_neg (by simp), if_pos (by simp [hblank])]
    exact ⟨[], hfound.symm⟩
  | cons c before ih =>
    rw [List.getLast?_cons] at hblank
    cases quote? with
    | some quote => exact ih hblank hopen
    | none =>
      rw [openQuote] at hopen
      rw [List.cons_append, findMarker]
      split
      · next hquote =>
        rw [if_pos hquote] at hopen
        exact ih hblank hopen
      · next hquote =>
        rw [if_neg hquote] at hopen
        split
        · exact (List.suffix_append before ('#' :: rest)).trans (List.suffix_cons c _)
        · exact ih hblank hopen

/-- The comment behind a node, as far as it is there, begins where it is found. -/
theorem trailing_eq (hline : m.line? line = some text)
    (hfound : findMarker none ' ' (text.drop (column - 1)) = '#' :: rest) :
    m.trailing line column ≠ "" ∧
      (Text.trimEndChars text).length - (m.trailing line column).length =
        text.length - ('#' :: rest).length := by
  have hsuffix : '#' :: rest <:+ text := by
    rcases findMarker_eq_nil_or none ' ' (text.drop (column - 1)) with
      hnil | ⟨rest', hrest, hsuffix⟩
    · rw [hfound] at hnil
      cases hnil
    · rw [hfound] at hrest
      rw [hrest]
      exact hsuffix.trans (List.drop_suffix _ _)
  obtain ⟨before, rfl⟩ := hsuffix
  have htrailing : m.trailing line column = String.ofList ('#' :: Text.trimEndChars rest) := by
    rw [trailing, hline]
    dsimp only
    rw [hfound, Text.trimEndChars, Text.dropEndWhile_cons (by decide), Text.trimEndChars]
  have htrim : Text.trimEndChars (before ++ '#' :: rest) =
      before ++ '#' :: Text.trimEndChars rest :=
    Text.dropEndWhile_append_cons (by decide) before rest
  rw [htrailing, htrim]
  refine ⟨by simp, ?_⟩
  rw [String.length_ofList, List.length_append, List.length_append, Nat.add_sub_cancel,
    Nat.add_sub_cancel]

/-- Only where a marker is found there is a comment behind a node. -/
theorem findMarker_ne_nil_of_trailing (h : m.trailing line column ≠ "") :
    ∃ text, m.line? line = some text ∧ findMarker none ' ' (text.drop (column - 1)) ≠ [] := by
  unfold trailing at h
  split at h
  · next text hline =>
    refine ⟨text, hline, fun hnone => h ?_⟩
    rw [hnone]
    rfl
  · exact absurd rfl h

/-! ## Comments above -/

/-- The lines of a comment up to a line are comment lines that are there to be searched. -/
theorem line?_of_commentsUpTo {upTo : Nat} (hlast : line ≤ upTo)
    (hfirst : upTo < line + (m.commentsUpTo upTo).length) :
    ∃ text, m.line? line = some text ∧ isCommentLine text = true := by
  induction upTo with
  | zero => exact absurd hfirst (by simp [commentsUpTo, Nat.le_zero.mp hlast])
  | succ upTo ih =>
    rw [commentsUpTo] at hfirst
    split at hfirst
    · next text htext =>
      split at hfirst
      · next hcomment =>
        by_cases hline : line = upTo + 1
        · subst hline
          exact ⟨text, htext, hcomment⟩
        · rw [List.length_append, List.length_singleton] at hfirst
          exact ih (by omega) (by omega)
      · exact absurd hfirst (by simpa using hlast)
    · exact absurd hfirst (by simpa using hlast)

/-- The lines of the comment above a node are comment lines that are there to be searched. -/
theorem line?_of_head (hm : ∀ l ∈ m.lines, '\n' ∉ l) {above : Nat} (h : m.head line column ≠ "")
    (hfirst : line ≤ above + (Text.lines (m.head line column).toList).length)
    (hlast : above < line) :
    ∃ text, m.line? above = some text ∧ isCommentLine text = true := by
  have hhead : m.head line column =
      String.ofList (List.intercalate ['\n'] (m.commentsUpTo (line - 1))) := by
    unfold head at h ⊢
    split at h
    · split at h
      · next hblank => rw [if_pos hblank]
      · exact absurd rfl h
    · exact absurd rfl h
  rw [hhead, String.toList_ofList, Text.lines_intercalate fun l hl =>
    (isMarked_commentsUpTo hm _ l hl).isLine] at hfirst
  have hupTo : above ≤ line - 1 := by omega
  exact line?_of_commentsUpTo hupTo (by omega)

/-- A comment line has only blanks before its marker. -/
theorem getElem?_of_isCommentLine (h : isCommentLine text = true) :
    text[(text.takeWhile Text.isBlank).length]? = some '#' := by
  rw [isCommentLine, decide_eq_true_eq] at h
  have hstart : (text.dropWhile Text.isBlank).head? = some '#' := Text.head?_dropEndWhile h
  have hdrop : text.drop (text.takeWhile Text.isBlank).length = text.dropWhile Text.isBlank := by
    have hparts := @List.drop_left _ (text.takeWhile Text.isBlank) (text.dropWhile Text.isBlank)
    rwa [List.takeWhile_append_dropWhile] at hparts
  rw [← List.head?_drop, hdrop, hstart]

end Margin

/-! ## Nodes with comments -/

/-- Whether a node is a scalar or an alias. -/
def Node.IsContent (n : Node) : Prop := n.shape = .scalar ∨ n.shape = .reference

/-- Whether a scalar or an alias has the comments around its place, which is that of an event, and
a collection has none. -/
structure Node.IsCommented (m : Margin) (events : List Event) (n : Node) : Prop where
  content : n.IsContent → (∃ e ∈ events, e.IsContent ∧ n.position = e.position) ∧
    n.info.headComment = m.head n.position.line n.position.column ∧
    n.info.lineComment = m.trailing n.position.line n.position.column
  bare : ¬ n.IsContent → n.info.headComment = "" ∧ n.info.lineComment = ""

/-- A builder gives its nodes the comments of its margin. -/
theorem TreeBuilder.makes_isCommented (b : TreeBuilder) (events : List Event) :
    b.Makes events fun root => ∀ n, root.Holds n → n.IsCommented b.margin events where
  scalar := by
    rintro e text style anchor he hkind _ ⟨⟩
    refine ⟨fun _ => ⟨⟨e, he, ?_, rfl⟩, rfl, rfl⟩, fun hcontent => absurd (.inl rfl) hcontent⟩
    rw [Event.IsContent, hkind]
    trivial
  reference := by
    rintro e number target he hkind - htarget n hn
    cases hn with
    | self =>
      refine ⟨fun _ => ⟨⟨e, he, ?_, rfl⟩, rfl, rfl⟩, fun hcontent => absurd (.inr rfl) hcontent⟩
      rw [Event.IsContent, hkind]
      trivial
    | target inside => exact htarget n inside
  sequence := by
    rintro position anchor items hitems n hn
    cases hn with
    | self => exact ⟨fun hcontent => hcontent.elim nofun nofun, fun _ => ⟨rfl, rfl⟩⟩
    | item mem inside => exact hitems _ mem n inside
  mapping := by
    rintro position anchor pairs hpairs n hn
    cases hn with
    | self => exact ⟨fun hcontent => hcontent.elim nofun nofun, fun _ => ⟨rfl, rfl⟩⟩
    | key mem inside => exact (hpairs _ mem).1 n inside
    | value mem inside => exact (hpairs _ mem).2 n inside

namespace Document

variable {source : String} {root n : Node} {events : List Event} {text : List Char}

/-! ## Markers of comments -/

/-- A line that can be searched is that of the source. -/
theorem lineAt_of_line? (hline : (margin source).line? line = some text) :
    Text.lineAt (Text.lines source.toList) line = text := by
  refine Text.lineAt_eq ?_ (Margin.getElem?_of_line? hline)
  rintro rfl
  cases hline

/-- With plain blanks the lines are those of the reader. -/
theorem HasPlainBlanks.linesOf_eq (h : HasPlainBlanks source) :
    linesOf source.toList = Text.lines source.toList :=
  (linesOf_eq_lines h.returns).1

/-- So are the places on them. -/
theorem HasPlainBlanks.holdsAt_iff (h : HasPlainBlanks source) {r : ScalarReading} :
    r.HoldsAt (Text.lines source.toList) line column ↔ r.Holds line column := by
  obtain ⟨hline, hcolumn⟩ := readerPlace_eq (linesOf_eq_lines h.returns).2 line column
  rw [ScalarReading.HoldsAt, hline, hcolumn]

/-- What the search for comments takes for a marker is one for the reader. -/
theorem HasPlainBlanks.isMarker (h : HasPlainBlanks source)
    (hline : (margin source).line? line = some text) (hmarker : text[column]? = some '#')
    (hblank : column = 0 ∨ ∃ ch, text[column - 1]? = some ch ∧ Text.isBlank ch = true) :
    IsMarker (linesOf source.toList) line column := by
  rw [IsMarker, h.linesOf_eq, lineAt_of_line? hline]
  refine ⟨hmarker, ?_⟩
  rcases hblank with rfl | ⟨ch, hch, hblank⟩
  · exact .inl rfl
  · by_cases hcolumn : column = 0
    · exact .inl hcolumn
    · obtain ⟨before, rfl⟩ := Nat.exists_eq_succ_of_ne_zero hcolumn
      have hchain := List.isChain_iff_getElem.mp
        (h.markers text (List.mem_of_getElem? (Margin.getElem?_of_line? hline)))
      obtain ⟨hlt, hget⟩ := List.getElem?_eq_some_iff.mp hmarker
      obtain ⟨hlt', hget'⟩ := List.getElem?_eq_some_iff.mp hch
      exact .inr ⟨ch, hch, hget' ▸ hchain before (by omega) hget (hget'.symm ▸ hblank)⟩

/-- A marker that begins the comment above a node is at no character of a scalar, nor is anything
behind it. -/
theorem HasPlainBlanks.not_holds_of_isCommentLine (h : HasPlainBlanks source)
    (hevents : Yaml.events? (Yaml.tokens source.toList) = some (some events))
    (hline : (margin source).line? line = some text) (hcomment : Margin.isCommentLine text = true)
    {r : ScalarReading} (hr : r ∈ scalars source) {column' : Nat}
    (hcolumn : (text.takeWhile Text.isBlank).length ≤ column') : ¬ r.Holds line column' := by
  intro hholds
  have hblank {before : Nat} (hbefore : before < (text.takeWhile Text.isBlank).length) :
      ∃ ch, text[before]? = some ch ∧ Text.isBlank ch = true := by
    refine ⟨_, ?_, List.mem_takeWhile_imp (List.getElem_mem hbefore)⟩
    rw [(List.takeWhile_prefix _).getElem hbefore]
    exact List.getElem?_eq_getElem _
  have hmarker : IsMarker (linesOf source.toList) line (text.takeWhile Text.isBlank).length := by
    refine h.isMarker hline (Margin.getElem?_of_isCommentLine hcomment) ?_
    by_cases hzero : (text.takeWhile Text.isBlank).length = 0
    · exact .inl hzero
    · exact .inr (hblank (by omega))
  obtain ⟨-, -, -, -, before, hbefore, quote, hquote, hget⟩ :=
    quoted_of_holds h.returns hevents hmarker (by rw [hline]; nofun) hr hcolumn hholds
  -- no quote stands before the marker of a comment line
  obtain ⟨ch, hch, hblank⟩ := hblank hbefore
  rw [h.linesOf_eq, lineAt_of_line? hline, hch] at hget
  cases hget
  rcases hquote with rfl | rfl <;> cases hblank

/-- Whether the search for the comment behind a node sees the quotes around markers: wherever a `#`
behind a blank is in a quoted scalar, it takes a quote for open. -/
def SeesQuotes (source : String) (n : Node) : Prop :=
  n.IsContent → ∀ text before rest, (margin source).line? n.position.line = some text →
    text.drop (n.position.column - 1) = before ++ '#' :: rest →
    Text.isBlank (before.getLast?.getD ' ') = true →
    (∃ r ∈ scalars source, r.IsQuoted ∧ r.HoldsAt (Text.lines source.toList) n.position.line
      (n.position.column - 1 + before.length)) →
    Margin.openQuote none ' ' before ≠ none

/-- A marker behind a blank that is behind the place of an event is one for the reader. -/
theorem HasPlainBlanks.isMarker_behind (h : HasPlainBlanks source)
    (hevents : Yaml.events? (Yaml.tokens source.toList) = some (some events)) {e : Event}
    (he : e ∈ events) (hcontent : e.IsContent) {before rest : List Char}
    (hline : (margin source).line? e.position.line = some text)
    (hdrop : text.drop (e.position.column - 1) = before ++ '#' :: rest)
    (hblank : Text.isBlank (before.getLast?.getD ' ') = true) :
    IsMarker (linesOf source.toList) e.position.line
      (e.position.column - 1 + before.length) := by
  have hget (i : Nat) : text[e.position.column - 1 + i]? = (before ++ '#' :: rest)[i]? := by
    rw [← hdrop, List.getElem?_drop]
  have hmarker : text[e.position.column - 1 + before.length]? = some '#' := by
    rw [hget]
    simp
  cases hbefore : before.getLast? with
  | none =>
    -- the marker is at the position of the event, which is clear
    obtain rfl := List.getLast?_eq_none_iff.mp hbefore
    refine isClear_position hevents he hcontent ?_
    rw [h.linesOf_eq, lineAt_of_line? hline]
    exact hmarker
  | some ch =>
    obtain ⟨before', rfl⟩ := List.getLast?_eq_some_iff.mp hbefore
    rw [hbefore] at hblank
    refine h.isMarker hline hmarker (.inr ⟨ch, ?_, hblank⟩)
    rw [List.length_append, List.length_singleton, ← Nat.add_assoc, Nat.add_sub_cancel, hget]
    simp

/-- The comment behind a node is apart from scalars if the quotes around markers are seen. -/
theorem HasPlainBlanks.not_holds_of_trailing (h : HasPlainBlanks source)
    (hevents : Yaml.events? (Yaml.tokens source.toList) = some (some events))
    (hn : n.IsCommented (margin source) events) (hsees : SeesQuotes source n)
    (hcomment : n.info.lineComment ≠ "")
    (hline : (margin source).lines[n.position.line - 1]? = some text)
    {r : ScalarReading} (hr : r ∈ scalars source) {column' : Nat}
    (hcolumn : (Text.trimEndChars text).length - n.info.lineComment.length ≤ column') :
    ¬ r.Holds n.position.line column' := by
  intro hholds
  have hcontent : n.IsContent := by
    by_contra hcontent
    exact hcomment (hn.bare hcontent).2
  obtain ⟨⟨e, he, hevent, hposition⟩, -, htrailing⟩ := hn.content hcontent
  rw [htrailing] at hcomment hcolumn
  obtain ⟨text', hline', hfound⟩ := Margin.findMarker_ne_nil_of_trailing hcomment
  obtain rfl : text = text' :=
    Option.some.inj (hline.symm.trans (Margin.getElem?_of_line? hline'))
  obtain ⟨before, rest, hfound, hdrop, hblank, hopen⟩ := Margin.exists_of_findMarker_ne_nil hfound
  rw [(Margin.trailing_eq hline' hfound).2] at hcolumn
  have hlength := congrArg List.length hdrop
  rw [List.length_drop, List.length_append, List.length_cons] at hlength
  rw [List.length_cons] at hcolumn
  have hmarker := h.isMarker_behind hevents he hevent (hposition ▸ hline') (hposition ▸ hdrop) hblank
  rw [← hposition] at hmarker
  obtain ⟨r', hr', hquoted, hholds', -⟩ := quoted_of_holds h.returns hevents hmarker
    (by rw [hline']; nofun) hr (by omega) hholds
  exact hsees hcontent text before rest hline' hdrop hblank
    ⟨r', hr', hquoted, h.holdsAt_iff.mpr hholds'⟩ hopen

/-- Where the quotes around markers are not seen, the comment behind a node is not apart from
scalars. -/
theorem seesQuotes_of_commentsApart (hn : n.IsCommented (margin source) events)
    (hapart : CommentsApart source n) : SeesQuotes source n := by
  rintro hcontent text before rest hline hdrop hblank ⟨r, hr, -, hholds⟩ hopen
  obtain ⟨-, -, htrailing⟩ := hn.content hcontent
  have hsuffix : '#' :: rest <:+ Margin.findMarker none ' ' (before ++ '#' :: rest) :=
    Margin.suffix_findMarker hblank hopen
  rw [← hdrop] at hsuffix
  have hne : Margin.findMarker none ' ' (text.drop (n.position.column - 1)) ≠ [] := by
    rintro hnil
    rw [hnil, List.suffix_nil] at hsuffix
    cases hsuffix
  obtain ⟨before', rest', hfound, -⟩ := Margin.exists_of_findMarker_ne_nil hne
  obtain ⟨hcomment, hbegins⟩ := Margin.trailing_eq hline hfound
  rw [← htrailing] at hcomment hbegins
  have hplace := Node.CommentBegins.behind hcomment (Margin.getElem?_of_line? hline)
  rw [hbegins] at hplace
  refine hapart _ _ hplace r hr _ ?_ hholds
  -- the comment begins at the marker or before it
  have hlength := congrArg List.length hdrop
  have hle := hsuffix.length_le
  rw [hfound] at hle
  rw [List.length_drop, List.length_append] at hlength
  simp only [List.length_cons] at hle hlength ⊢
  omega

/-- The nodes of a document have the comments around their places. -/
theorem isCommented_of_read [Diagnosis] (hread : read source = .ok (some root)) :
    ∃ events, Yaml.events? (Yaml.tokens source.toList) = some (some events) ∧
      ∀ n, root.Holds n → n.IsCommented (margin source) events := by
  obtain ⟨events, hevents, hroot⟩ := read_eq_ok_some hread
  refine ⟨events, hevents, ?_⟩
  rw [margin_eq hevents]
  exact (TreeBuilder.makes_isCommented _ events).ofEvents hroot

/-- The comments of a node are apart from scalars if their beginnings are. -/
theorem commentsApart_of_beginsApart
    (hevents : Yaml.events? (Yaml.tokens source.toList) = some (some events))
    (h : BeginsApart source n) : CommentsApart source n := by
  intro line column hbegins r hr column' hcolumn
  by_cases hreaches : CommentReaches (Text.lines source.toList) line column column'
  · intro hholds
    have hmarker := (isMarker_readerPlace_iff hreaches.marker).mpr hreaches.start
    obtain ⟨hline, hcolumn'⟩ := readerPlace_of_le hcolumn hreaches.unbroken
    rw [ScalarReading.HoldsAt, hline, hcolumn'] at hholds
    obtain ⟨r', hr', -, hholds'⟩ :=
      exists_covers_of_holds hevents hmarker hr (Nat.le_add_right _ _) hholds
    exact h line column hbegins r' hr' column (Nat.le_refl column)
      (fun hself => Nat.lt_irrefl column hself.later) hholds'
  · exact h line column hbegins r hr column' hcolumn hreaches

/-- With plain blanks the comments of a node are apart from scalars if the quotes around markers are
seen. -/
theorem HasPlainBlanks.commentsApart (h : HasPlainBlanks source)
    (hevents : Yaml.events? (Yaml.tokens source.toList) = some (some events))
    (hn : n.IsCommented (margin source) events) (hsees : SeesQuotes source n) :
    CommentsApart source n := by
  intro line column hbegins r hr column' hcolumn
  rw [h.holdsAt_iff]
  cases hbegins with
  | behind has hline => exact h.not_holds_of_trailing hevents hn hsees has hline hr hcolumn
  | above has first last shown =>
    have hcontent : n.IsContent := by
      by_contra hcontent
      exact has (hn.bare hcontent).1
    obtain ⟨-, hhead, -⟩ := hn.content hcontent
    rw [hhead] at has first
    have hfeeds : ∀ l ∈ (margin source).lines, '\n' ∉ l :=
      fun l hl => Text.not_mem_linesFrom List.not_mem_nil hl
    obtain ⟨text, hline, hcomment⟩ := Margin.line?_of_head hfeeds has first last
    obtain rfl := Option.some.inj (shown.symm.trans (Margin.getElem?_of_line? hline))
    exact h.not_holds_of_isCommentLine hevents hline hcomment hr hcolumn

/-- The comments of a node are apart from scalars exactly if their beginnings are, and with plain
blanks exactly if the quotes around markers are seen. -/
theorem commentsApart_iff_seesQuotes [Diagnosis] (hread : read source = .ok (some root))
    (hholds : root.Holds n) :
    (CommentsApart source n ↔ BeginsApart source n) ∧
      (HasPlainBlanks source → (CommentsApart source n ↔ SeesQuotes source n)) := by
  obtain ⟨events, hevents, hcommented⟩ := isCommented_of_read hread
  have hn := hcommented n hholds
  refine ⟨⟨fun hapart line column hbegins r hr column' hcolumn _ =>
    hapart line column hbegins r hr column' hcolumn, commentsApart_of_beginsApart hevents⟩, ?_⟩
  exact fun h => ⟨seesQuotes_of_commentsApart hn, h.commentsApart hevents hn⟩

/-! ## Quotes that are seen and quotes that are not -/

/-- The value of the first pair of a document. -/
def firstValue? [Diagnosis] (source : String) : Option Node :=
  (((read source).toOption.join.bind (·.pairs?)).bind (·.head?)).map (·.2)

/-- It is a node of the document. -/
theorem holds_firstValue? [Diagnosis] (h : firstValue? source = some n) :
    ∃ root, read source = .ok (some root) ∧ root.Holds n := by
  obtain ⟨⟨key, value⟩, hpair, rfl⟩ := Option.map_eq_some_iff.mp h
  obtain ⟨pairs, hpairs, hhead⟩ := Option.bind_eq_some_iff.mp hpair
  obtain ⟨root, hread, hroot⟩ := Option.bind_eq_some_iff.mp hpairs
  rw [Option.join_eq_some_iff, ← Reading.eq_ok_iff_toOption] at hread
  refine ⟨root, hread, ?_⟩
  unfold Node.pairs? at hroot
  split at hroot
  · cases hroot
    exact .value (List.mem_of_head? hhead) (.self _)
  · cases hroot

/-- A document with a marker in a quoted scalar. -/
def quotedMarker : String := "a: \"x # y\"\n"

/-- The marker is in quotes for the search, too. -/
theorem commentsApart_of_quoted_marker :
    HasPlainBlanks quotedMarker ∧ ∃ root n, read quotedMarker = .ok (some root) ∧ root.Holds n ∧
      n.position = ⟨1, 4⟩ ∧ CommentsApart quotedMarker n := by
  have hblanks : HasPlainBlanks quotedMarker := by
    refine ⟨fun before rest htext => ?_, by decide +kernel⟩
    have hreturn : '\r' ∈ quotedMarker.toList := by
      rw [htext]
      simp
    exact absurd hreturn (by decide +kernel)
  have hvalue : (firstValue? quotedMarker).map (·.position) = some ⟨1, 4⟩ := by decide +kernel
  obtain ⟨n, hn, hposition⟩ := Option.map_eq_some_iff.mp hvalue
  obtain ⟨root, hread, hholds⟩ := holds_firstValue? hn
  refine ⟨hblanks, root, n, hread, hholds, hposition,
    ((commentsApart_iff_seesQuotes hread hholds).2 hblanks).mpr ?_⟩
  intro _ text before rest hline hdrop _ _
  have hline' : (margin quotedMarker).line? 1 = some quotedMarker.toList.dropLast := by
    decide +kernel
  rw [hposition] at hline hdrop
  obtain rfl := Option.some.inj (hline'.symm.trans hline)
  have hdrop : quotedMarker.toList.dropLast.drop 3 = before ++ '#' :: rest := hdrop
  -- at every `#` of the value a quote is open
  have hopen : ∀ i < (quotedMarker.toList.dropLast.drop 3).length,
      (quotedMarker.toList.dropLast.drop 3)[i]? = some '#' →
        Margin.openQuote none ' ' ((quotedMarker.toList.dropLast.drop 3).take i) ≠ none := by
    decide +kernel
  rw [hdrop] at hopen
  have hmarker := hopen before.length (by simp) (by simp)
  rwa [List.take_left] at hmarker

/-- A document with an escaped quote and a marker behind it in a quoted scalar. -/
def escapedQuote : String := "a: \"x \\\" # y\"\n"

/-- A comment is taken from a quoted scalar. -/
theorem not_commentsApart_of_escaped_quote :
    ¬ ∀ source root, read source = .ok (some root) →
      ∀ n, root.Holds n → CommentsApart source n := by
  intro apart
  -- the value of the pair, with its comment and its position
  have hvalue : (firstValue? escapedQuote).map (fun n => (n.info.lineComment, n.position)) =
      some ("# y\"", ⟨1, 4⟩) := by
    decide +kernel
  obtain ⟨value, hfirst, hinfo⟩ := Option.map_eq_some_iff.mp hvalue
  obtain ⟨hcomment, hposition⟩ := Prod.mk.inj hinfo
  obtain ⟨root, hread, hholds⟩ := holds_firstValue? hfirst
  -- the scalar that it is, which goes on to the end of the line
  have hscalar : (scalars escapedQuote)[1]?.any (fun r => r.style = .doubleQuoted &&
      (Quoted.body false r.lexer.indent {} (r.lexer.cursor.skip 1)).any fun p =>
        decide (r.lexer.mark.Spans p.2.mark 1 9)) = true := by
    decide +kernel
  rw [Option.any_eq_true] at hscalar
  obtain ⟨r, hr, hscalar⟩ := hscalar
  simp only [Bool.and_eq_true, decide_eq_true_eq, Option.any_eq_true] at hscalar
  obtain ⟨hstyle, ⟨text, c⟩, hbody, hspans⟩ := hscalar
  refine apart _ _ hread value hholds 1 9 ?_ r (List.mem_of_getElem? hr) 9 (Nat.le_refl 9) ?_
  · have hline : (Text.lines escapedQuote.toList)[value.position.line - 1]? =
        some "a: \"x \\\" # y\"".toList := by
      rw [hposition]
      decide +kernel
    have hbegins := Node.CommentBegins.behind (by rw [hcomment]; decide) hline
    rw [hcomment, hposition] at hbegins
    exact hbegins
  · have hplace : readerLine (Text.lines escapedQuote.toList) 1 9 = 1 ∧
        readerColumn (Text.lines escapedQuote.toList) 1 9 = 9 := by
      decide +kernel
    rw [ScalarReading.HoldsAt, hplace.1, hplace.2]
    unfold ScalarReading.Holds
    rw [hstyle]
    exact ⟨text, c, hbody, hspans⟩

end Document

end QueryBook
