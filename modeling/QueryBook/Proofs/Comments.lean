import QueryBook.Comment
import QueryBook.Comment.Margin
import QueryBook.Proofs.Outline

/-!
# Comments that are found again

A comment written above a key is found above it: its lines are cut out of the text, trimmed and
freed of their markers. Every comment that is found is such a comment, with trimmed lines.
-/

namespace QueryBook

namespace Text

/-! ## Trimmed texts -/

/-- Whether a text has no blanks at its ends. -/
structure IsTrimmed (cs : List Char) : Prop where
  first : ∀ c ∈ cs.head?, isBlank c = false
  last : ∀ c ∈ cs.getLast?, isBlank c = false

/-- Trimming leaves no blanks at the ends. -/
theorem isTrimmed_trimChars (cs : List Char) : IsTrimmed (trimChars cs) where
  first := by
    intro c hc
    have hstart : c ∈ (trimStartChars cs).head? := head?_dropEndWhile hc
    have hnot := List.head?_dropWhile_not isBlank cs
    rw [trimStartChars, Option.mem_def] at hstart
    rw [hstart] at hnot
    simpa using hnot
  last := getLast?_dropEndWhile isBlank _

/-- There is nothing to trim where there are no blanks at the ends. -/
theorem IsTrimmed.trimChars_eq {cs : List Char} (h : IsTrimmed cs) : trimChars cs = cs := by
  have hstart : trimStartChars cs = cs := by
    cases cs with
    | nil => rfl
    | cons c rest =>
      rw [trimStartChars, List.dropWhile_cons_of_neg]
      simp [h.first c rfl]
  rw [trimChars, hstart]
  exact dropEndWhile_eq_self h.last

/-- A text has no blanks at its ends exactly if trimming leaves it as it is. -/
theorem isTrimmed_iff {cs : List Char} : IsTrimmed cs ↔ trimChars cs = cs :=
  ⟨IsTrimmed.trimChars_eq, fun h => h ▸ isTrimmed_trimChars cs⟩

instance (cs : List Char) : Decidable (IsTrimmed cs) := decidable_of_iff _ isTrimmed_iff.symm

/-- Indentation is blank. -/
theorem isBlank_of_mem_spaces {n : Nat} : ∀ c ∈ List.replicate n ' ', isBlank c = true :=
  List.forall_mem_replicate.mpr (.inr (by decide))

/-- Trimming takes indentation away. -/
theorem trimChars_indented (n : Nat) (cs : List Char) :
    trimChars (List.replicate n ' ' ++ cs) = trimChars cs := by
  rw [trimChars, trimStartChars, List.dropWhile_append_of_pos isBlank_of_mem_spaces]
  rfl

/-- Trimming adds nothing. -/
theorem mem_of_mem_trimChars {cs : List Char} {c : Char} (h : c ∈ trimChars cs) : c ∈ cs :=
  (List.dropWhile_suffix isBlank).subset (mem_of_mem_dropEndWhile h)

/-! ## Lines of a text -/

theorem linesFrom_append {l : List Char} (h : '\n' ∉ l) (before rest : List Char) :
    linesFrom before (l ++ rest) = linesFrom (l.reverse ++ before) rest := by
  induction l generalizing before with
  | nil => rfl
  | cons c l ih =>
    rw [List.mem_cons, not_or] at h
    rw [List.cons_append, linesFrom, ih h.2, List.reverse_cons, List.append_assoc]
    · rfl
    · exact fun hc => h.1 hc.symm

/-- A line that does not end in a carriage return is closed as it is. -/
theorem closeLine_reverse {l : List Char} (h : l.getLast? ≠ some '\r') :
    closeLine l.reverse = l := by
  rw [← List.head?_reverse] at h
  unfold closeLine
  split
  · next before hr =>
    rw [hr] at h
    exact absurd rfl h
  · exact List.reverse_reverse l

/-- Whether a line stays as it is when lines are looked for. -/
structure IsLine (l : List Char) : Prop where
  feed : '\n' ∉ l
  ending : l.getLast? ≠ some '\r'

/-- A line and its end come before the other lines. -/
theorem lines_line {l : List Char} (h : IsLine l) (rest : List Char) :
    lines (l ++ '\n' :: rest) = l :: lines rest := by
  rw [lines, linesFrom_append h.feed, linesFrom, List.append_nil, closeLine_reverse h.ending, lines]

/-- Lines are found again in their text, before those of what follows. -/
theorem lines_unlines_append {ls : List (List Char)} (h : ∀ l ∈ ls, IsLine l)
    (rest : List Char) : lines (unlines ls ++ rest) = ls ++ lines rest := by
  induction ls with
  | nil => rfl
  | cons l ls ih =>
    rw [List.forall_mem_cons] at h
    rw [unlines_cons, List.append_assoc, List.cons_append, lines_line h.1, ih h.2,
      List.cons_append]

/-- Lines are found again in their text. -/
theorem lines_unlines {ls : List (List Char)} (h : ∀ l ∈ ls, IsLine l) :
    lines (unlines ls) = ls := by
  have hnil : lines [] = [] := rfl
  rw [← List.append_nil (unlines ls), lines_unlines_append h, hnil, List.append_nil]

/-- Lines are found again without the end of the last one, unless that is empty. -/
theorem lines_intercalate {ls : List (List Char)} (h : ∀ l ∈ ls, IsLine l ∧ l ≠ []) :
    lines (List.intercalate ['\n'] ls) = ls := by
  induction ls with
  | nil => rfl
  | cons l ls ih =>
    rw [List.forall_mem_cons] at h
    cases ls with
    | nil =>
      obtain ⟨c, rest, rfl⟩ := List.exists_cons_of_ne_nil h.1.2
      rw [List.intercalate_singleton, lines, ← List.append_nil (c :: rest),
        linesFrom_append h.1.1.feed]
      simp [linesFrom]
    | cons l' ls =>
      rw [List.intercalate_cons_cons, List.append_assoc, List.singleton_append,
        lines_line h.1.1, ih h.2]

/-- No line of a text holds a line feed. -/
theorem not_mem_linesFrom {before text l : List Char} (hbefore : '\n' ∉ before)
    (h : l ∈ linesFrom before text) : '\n' ∉ l := by
  have hclose {before : List Char} (hbefore : '\n' ∉ before) : '\n' ∉ closeLine before := by
    unfold closeLine
    split <;> simp_all
  induction text generalizing before with
  | nil =>
    rw [linesFrom] at h
    split at h
    · cases h
    · rw [List.mem_singleton.mp h, List.mem_reverse]
      exact hbefore
  | cons c text ih =>
    by_cases hc : c = '\n'
    · rw [hc, linesFrom] at h
      rcases List.mem_cons.mp h with rfl | h
      · exact hclose hbefore
      · exact ih List.not_mem_nil h
    · rw [linesFrom.eq_3 _ _ _ hc] at h
      exact ih (by simp [Ne.symm hc, hbefore]) h

theorem linesFrom_ne_nil {before text : List Char} (h : before ≠ [] ∨ text ≠ []) :
    linesFrom before text ≠ [] := by
  induction text generalizing before with
  | nil => simpa [linesFrom] using h
  | cons c text ih =>
    by_cases hc : c = '\n'
    · rw [hc, linesFrom]
      simp
    · rw [linesFrom.eq_3 _ _ _ hc]
      exact ih (.inl (by simp))

end Text

/-! ## Written comments -/

/-- A line of a comment without its indentation is the marker, alone or with the line. -/
theorem commentLine_zero (line : String) :
    commentLine 0 line = '#' :: (if line.isEmpty then [] else ' ' :: line.toList) := rfl

/-- A line of a comment stands behind its indentation. -/
theorem commentLine_eq (indent : Nat) (line : String) :
    commentLine indent line = List.replicate indent ' ' ++ commentLine 0 line := rfl

/-- A line of a comment does not end with a blank. -/
theorem getLast?_commentLine {line : String} (h : Text.IsTrimmed line.toList) :
    ∀ c ∈ (commentLine 0 line).getLast?, Text.isBlank c = false := by
  intro c hc
  rw [commentLine_zero] at hc
  split at hc
  · cases hc
    decide
  · next hline =>
    obtain ⟨x, rest, hx⟩ := List.exists_cons_of_ne_nil (l := line.toList) (by simpa using hline)
    refine h.last c ?_
    rw [hx] at hc ⊢
    simpa using hc

/-- A line of a comment is found without its indentation. -/
theorem trimChars_commentLine (indent : Nat) {line : String}
    (h : Text.IsTrimmed line.toList) :
    Text.trimChars (commentLine indent line) = commentLine 0 line := by
  have htrimmed : Text.IsTrimmed (commentLine 0 line) := by
    refine ⟨fun c hc => ?_, getLast?_commentLine h⟩
    obtain rfl : '#' = c := Option.some.inj hc
    decide
  rw [commentLine_eq, Text.trimChars_indented, htrimmed.trimChars_eq]

/-- The marker is taken off again. -/
theorem stripMarker_commentLine {line : String} (h : Text.IsTrimmed line.toList) :
    Comment.stripMarker (commentLine 0 line) = line.toList := by
  rw [commentLine_zero, Comment.stripMarker]
  split
  · next hline =>
    rw [String.isEmpty_iff.mp hline]
    rfl
  · have hstart : Text.trimStartChars (' ' :: line.toList) = Text.trimStartChars line.toList :=
      List.dropWhile_cons_of_pos (by decide)
    rw [Text.trimChars, hstart]
    exact h.trimChars_eq

namespace Comment

/-- The raw comment of the lines of a comment. -/
def raw (c : Comment) : String :=
  String.ofList (List.intercalate ['\n'] (c.lines.map (commentLine 0)))

/-- Whether a comment can be found: it is made of trimmed lines. -/
def IsTidy (c : Comment) : Prop :=
  ∀ line ∈ c.lines, '\n' ∉ line.toList ∧ Text.IsTrimmed line.toList

instance (c : Comment) : Decidable c.IsTidy :=
  inferInstanceAs (Decidable (∀ line ∈ c.lines, _))

/-- Whether a raw line is one of a comment. -/
structure IsMarked (l : List Char) : Prop where
  feed : '\n' ∉ l
  marker : l.head? = some '#'
  last : ∀ c ∈ l.getLast?, Text.isBlank c = false

/-- It is a line with text. -/
theorem IsMarked.isLine {l : List Char} (h : IsMarked l) : Text.IsLine l ∧ l ≠ [] := by
  refine ⟨⟨h.feed, fun hr => absurd (h.last _ hr) (by decide)⟩, ?_⟩
  rintro rfl
  cases h.marker

/-- The lines of a tidy comment are written as lines of a comment. -/
theorem IsTidy.isMarked {c : Comment} (h : c.IsTidy) :
    ∀ l ∈ c.lines.map (commentLine 0), IsMarked l := by
  intro l hl
  obtain ⟨line, hline, rfl⟩ := List.mem_map.mp hl
  obtain ⟨hfeed, htrimmed⟩ := h line hline
  refine ⟨?_, rfl, getLast?_commentLine htrimmed⟩
  rw [commentLine_zero]
  split <;> simp [hfeed]

/-- Each of its lines is written on one line, at any indentation. -/
theorem IsTidy.isLine {c : Comment} (h : c.IsTidy) (indent : Nat) :
    ∀ l ∈ c.lines.map (commentLine indent), Text.IsLine l := by
  intro l hl
  obtain ⟨line, hline, rfl⟩ := List.mem_map.mp hl
  obtain ⟨hmarked, hne⟩ := (h.isMarked _ (List.mem_map_of_mem hline)).isLine
  rw [commentLine_eq]
  constructor
  · rw [List.mem_append, not_or]
    exact ⟨fun hmem => absurd (List.eq_of_mem_replicate hmem) (by decide), hmarked.feed⟩
  · rw [List.getLast?_append_of_ne_nil _ hne]
    exact hmarked.ending

/-- A comment is read from raw lines by taking the marker off each. -/
theorem parse_intercalate {ls : List (List Char)} (h : ∀ l ∈ ls, IsMarked l) :
    parse (String.ofList (List.intercalate ['\n'] ls)) =
      ⟨ls.map fun l => String.ofList (stripMarker l)⟩ := by
  rw [parse, String.toList_ofList, Text.lines_intercalate fun l hl => (h l hl).isLine]

/-- Without the markers the lines of a tidy comment are left. -/
theorem IsTidy.map_stripMarker {c : Comment} (h : c.IsTidy) :
    (c.lines.map (commentLine 0)).map (fun l => String.ofList (stripMarker l)) = c.lines := by
  have hstrip : ∀ line ∈ c.lines,
      ((fun l => String.ofList (stripMarker l)) ∘ commentLine 0) line = line := by
    intro line hline
    simp [stripMarker_commentLine (h line hline).2]
  rw [List.map_map, List.map_congr_left hstrip, List.map_id']

/-- A tidy comment is read from its raw lines. -/
theorem parse_raw {c : Comment} (h : c.IsTidy) : parse c.raw = c := by
  rw [raw, parse_intercalate h.isMarked, h.map_stripMarker]

/-- Only the empty comment has an empty raw comment. -/
theorem isEmpty_raw (c : Comment) : c.raw.isEmpty = c.isEmpty := by
  unfold raw isEmpty
  cases c.lines with
  | nil => rfl
  | cons line lines => cases lines <;> simp [commentLine_zero, List.intercalate]

/-- Only the empty comment has no lines. -/
theorem isEmpty_iff {c : Comment} : c.isEmpty = true ↔ c = .empty := by
  obtain ⟨lines⟩ := c
  simp [isEmpty, empty]

/-- The empty comment is read only from the empty text. -/
theorem parse_eq_empty_iff {raw : String} : parse raw = .empty ↔ raw.isEmpty = true := by
  rw [String.isEmpty_iff]
  constructor
  · intro hempty
    by_contra hne
    have hlines : Text.lines raw.toList ≠ [] := Text.linesFrom_ne_nil (.inr (by simpa using hne))
    exact hlines (List.map_eq_nil_iff.mp (congrArg Comment.lines hempty))
  · rintro rfl
    rfl

/-! ## Comments that are found -/

theorem isTidy_empty : IsTidy empty := fun _ hline => absurd hline List.not_mem_nil

/-- A comment read from the raw lines of one is tidy. -/
theorem isTidy_parse {ls : List (List Char)} (h : ∀ l ∈ ls, IsMarked l) :
    (parse (String.ofList (List.intercalate ['\n'] ls))).IsTidy := by
  rw [parse_intercalate h]
  intro line hline
  obtain ⟨l, hl, rfl⟩ := List.mem_map.mp hline
  have hmarked := h l hl
  cases l with
  | nil => cases hmarked.marker
  | cons c rest =>
    obtain rfl : c = '#' := Option.some.inj hmarked.marker
    rw [String.toList_ofList, stripMarker]
    refine ⟨?_, Text.isTrimmed_trimChars rest⟩
    exact fun hfeed => hmarked.feed (List.mem_cons_of_mem _ (Text.mem_of_mem_trimChars hfeed))

end Comment

namespace Margin

variable {m : Margin}

/-- What a line holds is the line of the source. -/
theorem getElem?_of_line? {line : Nat} {text : List Char} (h : m.line? line = some text) :
    m.lines[line - 1]? = some text := by
  rw [line?] at h
  split at h
  · cases h
  · exact h

/-- Comments above are marked lines. -/
theorem isMarked_commentsUpTo (hm : ∀ l ∈ m.lines, '\n' ∉ l) (line : Nat) :
    ∀ l ∈ m.commentsUpTo line, Comment.IsMarked l := by
  induction line with
  | zero =>
    intro l hl
    cases hl
  | succ line ih =>
    intro l hl
    rw [commentsUpTo] at hl
    split at hl
    · next text htext =>
      split at hl
      · next hcomment =>
        rcases List.mem_append.mp hl with hl | hl
        · exact ih l hl
        · rw [List.mem_singleton.mp hl]
          have hfeed := hm text (List.mem_of_getElem? (getElem?_of_line? htext))
          refine ⟨fun hmem => hfeed (Text.mem_of_mem_trimChars hmem), ?_,
            (Text.isTrimmed_trimChars text).last⟩
          simpa [isCommentLine] using hcomment
      · cases hl
    · cases hl

/-- What is found by its marker is the end of the text, from the marker on. -/
theorem findMarker_eq_nil_or (quote? : Option Char) (previous : Char) (text : List Char) :
    findMarker quote? previous text = [] ∨
      ∃ rest, findMarker quote? previous text = '#' :: rest ∧ '#' :: rest <:+ text := by
  have hcons {c : Char} {rest found : List Char}
      (h : found = [] ∨ ∃ rest', found = '#' :: rest' ∧ '#' :: rest' <:+ rest) :
      found = [] ∨ ∃ rest', found = '#' :: rest' ∧ '#' :: rest' <:+ c :: rest :=
    h.imp_right fun ⟨rest', hfound, hsuffix⟩ =>
      ⟨rest', hfound, hsuffix.trans (List.suffix_cons c rest)⟩
  induction text generalizing quote? previous with
  | nil => exact .inl rfl
  | cons c rest ih =>
    cases quote? with
    | some quote => exact hcons (ih _ _)
    | none =>
      rw [findMarker]
      split
      · exact hcons (ih _ _)
      · split
        · next hmarker =>
          rw [Bool.and_eq_true, decide_eq_true_eq] at hmarker
          rw [hmarker.1]
          exact .inr ⟨rest, rfl, List.suffix_refl _⟩
        · exact hcons (ih _ _)

/-- The comment above a node is read as a tidy comment. -/
theorem isTidy_head (hm : ∀ l ∈ m.lines, '\n' ∉ l) (line column : Nat) :
    (Comment.parse (m.head line column)).IsTidy := by
  unfold head
  split
  · split
    · exact Comment.isTidy_parse (isMarked_commentsUpTo hm _)
    · exact Comment.isTidy_empty
  · exact Comment.isTidy_empty

/-- The comment behind a node is read as a tidy comment. -/
theorem isTidy_trailing (hm : ∀ l ∈ m.lines, '\n' ∉ l) (line column : Nat) :
    (Comment.parse (m.trailing line column)).IsTidy := by
  unfold trailing
  split
  · next text htext =>
    rcases findMarker_eq_nil_or none ' ' (text.drop (column - 1)) with h | ⟨rest, h, hsuffix⟩
    · rw [h]
      exact Comment.isTidy_empty
    · have hsingle : Text.trimEndChars ('#' :: rest) =
          List.intercalate ['\n'] [Text.trimEndChars ('#' :: rest)] :=
        List.intercalate_singleton.symm
      rw [h, hsingle]
      refine Comment.isTidy_parse fun l hl => ?_
      rw [List.mem_singleton.mp hl]
      refine ⟨fun hfeed => ?_, ?_, Text.getLast?_dropEndWhile _ _⟩
      · have hmem := List.mem_of_mem_drop (hsuffix.subset (Text.mem_of_mem_dropEndWhile hfeed))
        exact hm text (List.mem_of_getElem? (getElem?_of_line? htext)) hmem
      · rw [Text.trimEndChars, Text.dropEndWhile_cons (by decide)]
        rfl
  · exact Comment.isTidy_empty

/-! ## Comments that are shown -/

/-- Whether lines stand behind a number of others and are open to the search for comments. -/
def Shows (m : Margin) (above : Nat) (ls : List (List Char)) : Prop :=
  ∀ (i : Nat) (l : List Char), ls[i]? = some l → m.line? (above + i + 1) = some l

/-- Lines in two parts are shown one part behind the other. -/
theorem Shows.append_iff {above : Nat} {ls ls' : List (List Char)} :
    m.Shows above (ls ++ ls') ↔ m.Shows above ls ∧ m.Shows (above + ls.length) ls' := by
  constructor
  · refine fun h => ⟨fun i l hl => h i l ?_, fun i l hl => ?_⟩
    · rw [List.getElem?_append_left (List.getElem?_eq_some_iff.mp hl).1]
      exact hl
    · have := h (ls.length + i) l (by simp [List.getElem?_append_right, hl])
      rwa [← Nat.add_assoc] at this
  · rintro ⟨h, h'⟩ i l hl
    by_cases hi : i < ls.length
    · rw [List.getElem?_append_left hi] at hl
      exact h i l hl
    · rw [List.getElem?_append_right (Nat.le_of_not_lt hi)] at hl
      have := h' _ l hl
      rwa [Nat.add_assoc above, Nat.add_sub_cancel' (Nat.le_of_not_lt hi)] at this

/-- There is no comment to find exactly behind a line that is no comment, or hidden. -/
theorem commentsUpTo_eq_nil_iff {line : Nat} :
    m.commentsUpTo line = [] ↔ ∀ text, m.line? line = some text → isCommentLine text = false := by
  cases line with
  | zero => simp [commentsUpTo, line?]
  | succ line =>
    rw [commentsUpTo]
    cases hline : m.line? (line + 1) with
    | none => simp
    | some text => cases hcomment : isCommentLine text <;> simp [hcomment]

/-- The lines of a comment are found behind the comment that lies above them. -/
theorem commentsUpTo_commentLines {above indent : Nat} {lines : List String}
    (htidy : ∀ line ∈ lines, Text.IsTrimmed line.toList)
    (h : m.Shows above (lines.map (commentLine indent))) :
    m.commentsUpTo (above + lines.length) =
      m.commentsUpTo above ++ lines.map (commentLine 0) := by
  induction lines generalizing above with
  | nil => simp
  | cons line lines ih =>
    rw [List.forall_mem_cons] at htidy
    rw [List.map_cons, ← List.singleton_append, Shows.append_iff] at h
    have hline : m.line? (above + 1) = some (commentLine indent line) := h.1 0 _ rfl
    have htrim := trimChars_commentLine indent htidy.1
    have hcomment : isCommentLine (commentLine indent line) = true := by
      rw [isCommentLine, htrim]
      rfl
    have hfirst : m.commentsUpTo (above + 1) = m.commentsUpTo above ++ [commentLine 0 line] := by
      rw [commentsUpTo, hline]
      dsimp only
      rw [if_pos hcomment, htrim]
    have hrest : m.commentsUpTo (above + 1 + lines.length) = _ := ih htidy.2 h.2
    rw [List.length_cons, Nat.add_comm lines.length, ← Nat.add_assoc, hrest, hfirst]
    simp

/-- Lines of the source are shown if none of them is hidden. -/
theorem shows_of_lines {above part below : List (List Char)}
    (hlines : m.lines = above ++ (part ++ below))
    (hopen : ∀ line, above.length + 1 ≤ line → line ≤ above.length + part.length →
      m.isHidden line = false) : m.Shows above.length part := by
  intro i l hl
  have hi : i < part.length := (List.getElem?_eq_some_iff.mp hl).1
  have hhidden : m.isHidden (above.length + i + 1) = false := hopen _ (by omega) (by omega)
  rw [line?, hhidden, if_neg (by simp), hlines, Nat.add_sub_cancel,
    List.getElem?_append_right (Nat.le_add_right ..), Nat.add_sub_cancel_left,
    List.getElem?_append_left hi]
  exact hl

/-- The comment above a key is found, behind the one that lies above it. -/
theorem head_key {above indent : Nat} {c : Comment} {text : List Char} (hc : c.IsTidy)
    (h : m.Shows above (c.lines.map (commentLine indent) ++
      [List.replicate indent ' ' ++ text])) :
    m.head (above + c.lines.length + 1) (indent + 1) =
      String.ofList (List.intercalate ['\n']
        (m.commentsUpTo above ++ c.lines.map (commentLine 0))) := by
  rw [Shows.append_iff, List.length_map] at h
  have hline : m.line? (above + c.lines.length + 1) = _ := h.2 0 _ rfl
  have hblank : (List.replicate indent ' ').all Text.isBlank = true :=
    List.all_eq_true.mpr Text.isBlank_of_mem_spaces
  rw [head, hline]
  dsimp only
  rw [Nat.add_sub_cancel, List.take_left' (List.length_replicate ..), if_pos hblank,
    Nat.add_sub_cancel, commentsUpTo_commentLines (fun line hl => (hc line hl).2) h.1]

/-- The raw comment at the end of a text, from its marker on. -/
def trailer (text : List Char) : String :=
  String.ofList (Text.trimEndChars (findMarker none ' ' text))

/-- The comment behind what stands in a line is found. -/
theorem trailing_of_line? {line : Nat} {before text : List Char}
    (h : m.line? line = some (before ++ text)) :
    m.trailing line (before.length + 1) = trailer text := by
  rw [trailing, h]
  dsimp only
  rw [Nat.add_sub_cancel, List.drop_left]
  rfl

/-- Only a text without a marker has no comment at its end. -/
theorem isEmpty_trailer (text : List Char) :
    (trailer text).isEmpty = true ↔ findMarker none ' ' text = [] := by
  rw [trailer]
  rcases findMarker_eq_nil_or none ' ' text with h | ⟨rest, h, -⟩
  · rw [h]
    exact iff_of_true rfl rfl
  · rw [h, Text.trimEndChars, Text.dropEndWhile_cons (by decide)]
    simp

/-- There is no comment above what is not the first in its line. -/
theorem head_of_line? {line : Nat} {before text : List Char}
    (h : m.line? line = some (before ++ text)) {c : Char} (hmem : c ∈ before)
    (hc : Text.isBlank c = false) : m.head line (before.length + 1) = "" := by
  rw [head, h]
  dsimp only
  rw [Nat.add_sub_cancel, List.take_left, if_neg]
  rw [List.all_eq_true]
  intro hall
  rw [hall c hmem] at hc
  cases hc

end Margin

end QueryBook
