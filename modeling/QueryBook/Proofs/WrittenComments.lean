import QueryBook.Proofs.Comments

/-!
# Comments that are written

A comment is written above a key, in lines that are indented as the key is. Whatever text it is
written into, it is found there again exactly if it is made of trimmed lines and no other comment
stands directly above it.
-/

namespace QueryBook

/-! ## Lines of texts in a row -/

namespace Text

/-- Lines that come up to a line feed are followed by the lines behind it. -/
theorem linesFrom_feed (before text rest : List Char) :
    linesFrom before (text ++ '\n' :: rest) = linesFrom before (text ++ ['\n']) ++ lines rest := by
  induction text generalizing before with
  | nil => rfl
  | cons c text ih =>
    rw [List.cons_append, List.cons_append]
    by_cases hc : c = '\n'
    · rw [hc, linesFrom, linesFrom, ih, List.cons_append]
    · rw [linesFrom.eq_3 _ _ _ hc, linesFrom.eq_3 _ _ _ hc]
      exact ih (c :: before)

/-- A text that ends a line is empty or has a line feed at its end. -/
theorem EndsLine.eq_nil_or {text : List Char} (h : EndsLine text) :
    text = [] ∨ ∃ before, text = before ++ ['\n'] := by
  rcases List.eq_nil_or_concat text with rfl | ⟨before, c, rfl⟩
  · exact .inl rfl
  · rw [List.concat_eq_append] at h ⊢
    have hc : c = '\n' := h c List.getLast?_concat
    exact .inr ⟨before, by rw [hc]⟩

/-- Behind a text that ends a line come the lines of what follows it. -/
theorem EndsLine.lines_append {text : List Char} (h : EndsLine text) (rest : List Char) :
    lines (text ++ rest) = lines text ++ lines rest := by
  obtain rfl | ⟨before, rfl⟩ := h.eq_nil_or
  · rfl
  · rw [List.append_assoc, List.singleton_append]
    exact linesFrom_feed [] before rest

/-- Up to a line feed there is one line for each. -/
theorem length_linesFrom (before text : List Char) :
    (linesFrom before (text ++ ['\n'])).length = text.count '\n' + 1 := by
  induction text generalizing before with
  | nil => rfl
  | cons c text ih =>
    rw [List.cons_append]
    by_cases hc : c = '\n'
    · rw [hc, linesFrom, List.length_cons, ih, List.count_cons_self]
    · rw [linesFrom.eq_3 _ _ _ hc, ih, List.count_cons_of_ne hc]

/-- A text that ends a line has one line for each line feed. -/
theorem EndsLine.length_lines {text : List Char} (h : EndsLine text) :
    (lines text).length = text.count '\n' := by
  obtain rfl | ⟨before, rfl⟩ := h.eq_nil_or
  · rfl
  · rw [lines, length_linesFrom, List.count_append, List.count_singleton_self]

/-- Closing a line takes nothing from a start without carriage returns. -/
theorem exists_closeLine {start : List Char} (hstart : '\r' ∉ start) (more : List Char) :
    ∃ more', closeLine (start ++ more).reverse = start ++ more' := by
  by_cases hreturn : (start ++ more).getLast? = some '\r'
  · rcases List.eq_nil_or_concat more with rfl | ⟨more', ch, rfl⟩
    · rw [List.append_nil] at hreturn
      exact absurd (List.mem_of_getLast? hreturn) hstart
    · rw [List.concat_eq_append, ← List.append_assoc] at hreturn ⊢
      rw [List.getLast?_concat, Option.some.injEq] at hreturn
      refine ⟨more', ?_⟩
      rw [hreturn, List.reverse_append, List.reverse_singleton, List.singleton_append, closeLine,
        List.reverse_reverse]
  · exact ⟨more, closeLine_reverse hreturn⟩

/-- A text that starts with no line break has that start in its first line. -/
theorem exists_lines_cons {start : List Char} (hstart : ∀ c ∈ start, Yaml.isBreak c = false)
    {rest : List Char} (hrest : rest ≠ []) :
    ∃ more below, lines (start ++ rest) = (start ++ more) :: below := by
  have hfeed : '\n' ∉ start := fun hmem => absurd (hstart _ hmem) (by decide)
  have hreturn : '\r' ∉ start := fun hmem => absurd (hstart _ hmem) (by decide)
  by_cases hmem : '\n' ∈ rest
  · obtain ⟨line, behind, rfl, hline⟩ := List.eq_append_cons_of_mem hmem
    obtain ⟨more, hmore⟩ := exists_closeLine hreturn line
    refine ⟨more, lines behind, ?_⟩
    rw [← List.append_assoc, lines, linesFrom_append (by simp [hfeed, hline]), List.append_nil,
      linesFrom, hmore, lines]
  · refine ⟨rest, [], ?_⟩
    rw [lines, ← List.append_nil (start ++ rest), linesFrom_append (by simp [hfeed, hmem])]
    simp [linesFrom, hrest]

/-! ## Places -/

/-- The place behind a text: lines end at line feeds, and columns count characters. -/
def placeBehind (text : List Char) : Position :=
  ⟨text.count '\n' + 1, (text.reverse.takeWhile (· ≠ '\n')).length + 1⟩

/-- Behind whole lines and the start of another one the place is on that line. -/
theorem EndsLine.placeBehind_append {text start : List Char} (h : EndsLine text)
    (hstart : '\n' ∉ start) :
    placeBehind (text ++ start) = ⟨(lines text).length + 1, start.length + 1⟩ := by
  have hall : ∀ c ∈ start.reverse, decide (c ≠ '\n') = true := by
    intro c hc
    rw [decide_eq_true_eq]
    rintro rfl
    exact hstart (List.mem_reverse.mp hc)
  have hcolumn : (text ++ start).reverse.takeWhile (· ≠ '\n') = start.reverse := by
    rw [List.reverse_append, List.takeWhile_append_of_pos hall]
    obtain rfl | ⟨before, rfl⟩ := h.eq_nil_or
    · exact List.append_nil _
    · rw [List.reverse_append]
      exact List.append_nil _
  rw [placeBehind, hcolumn, List.length_reverse, List.count_append,
    List.count_eq_zero_of_not_mem hstart, h.length_lines, Nat.add_zero]

end Text

/-! ## Keys with a comment -/

/-- A key in a text, and a comment above it with the same indentation. -/
structure CommentedKey where
  /-- The text above the comment. -/
  above : String
  /-- The number of spaces before the key and before each line of the comment. -/
  indent : Nat
  comment : Comment
  key : String
  /-- What follows the key, on its line and below. -/
  behind : String

namespace CommentedKey

/-- The text in front of the key. -/
def before (k : CommentedKey) : String :=
  k.above ++ Canonical.commentLines k.indent k.comment ++ Canonical.spaces k.indent

/-- The whole text. -/
def text (k : CommentedKey) : String := k.before ++ k.key ++ k.behind

/-- The place of the key. -/
def place (k : CommentedKey) : Position := Text.placeBehind k.before.toList

/-- The lines of the text, some of them hidden. -/
def margin (k : CommentedKey) (hidden : List (Nat × Nat)) : Margin :=
  ⟨Text.lines k.text.toList, hidden⟩

/-- The raw comment that is found above the key. -/
def found (k : CommentedKey) (hidden : List (Nat × Nat)) : String :=
  (k.margin hidden).head k.place.line k.place.column

/-- Whether the comment and the key have lines of their own, and none of these is hidden. -/
structure IsShown (k : CommentedKey) (hidden : List (Nat × Nat)) : Prop where
  above : Text.EndsLine k.above.toList
  key : k.key ≠ ""
  /-- The lines are those from the end of the text above on. -/
  lines : ∀ line, (Text.placeBehind k.above.toList).line ≤ line → line ≤ k.place.line →
    (k.margin hidden).isHidden line = false

/-- Whether no other comment is directly above the one that is written. -/
def StandsAlone (k : CommentedKey) (hidden : List (Nat × Nat)) : Prop :=
  ∀ line, (k.margin hidden).line? (Text.lines k.above.toList).length = some line →
    Margin.isCommentLine line = false

variable {k : CommentedKey} {hidden : List (Nat × Nat)}

/-- The text in front of the key is made of the text above, the comment and the indentation. -/
theorem toList_before (k : CommentedKey) :
    k.before.toList = k.above.toList ++
      Text.unlines (k.comment.lines.map (commentLine k.indent)) ++ List.replicate k.indent ' ' := by
  rw [before, String.toList_append, String.toList_append, Outline.toList_commentLines,
    Outline.toList_spaces]

/-- The lines above, those of the comment, and that of the key are the first ones of the text. -/
theorem exists_lines (hc : k.comment.IsTidy) (h : k.IsShown hidden) :
    ∃ more below, (k.margin hidden).lines = Text.lines k.above.toList ++
      ((k.comment.lines.map (commentLine k.indent) ++
        [List.replicate k.indent ' ' ++ more]) ++ below) := by
  have hspaces : ∀ c ∈ List.replicate k.indent ' ', Yaml.isBreak c = false :=
    List.forall_mem_replicate.mpr (.inr (by decide))
  have hkey : k.key.toList ++ k.behind.toList ≠ [] := by
    simp [h.key]
  obtain ⟨more, below, hlast⟩ := Text.exists_lines_cons hspaces hkey
  refine ⟨more, below, ?_⟩
  calc (k.margin hidden).lines
      = Text.lines (k.above.toList ++
          (Text.unlines (k.comment.lines.map (commentLine k.indent)) ++
            (List.replicate k.indent ' ' ++ (k.key.toList ++ k.behind.toList)))) := by
        rw [margin, text, String.toList_append, String.toList_append, toList_before]
        simp only [List.append_assoc]
    _ = Text.lines k.above.toList ++ (k.comment.lines.map (commentLine k.indent) ++
          Text.lines (List.replicate k.indent ' ' ++ (k.key.toList ++ k.behind.toList))) := by
        rw [h.above.lines_append, Text.lines_unlines_append (hc.isLine k.indent)]
    _ = _ := by
        rw [hlast]
        simp only [List.append_assoc, List.singleton_append]

/-- The key is on the line behind those of the comment, in the column behind the indentation. -/
theorem place_eq (hc : k.comment.IsTidy) (habove : Text.EndsLine k.above.toList) :
    k.place = ⟨(Text.lines k.above.toList).length + k.comment.lines.length + 1, k.indent + 1⟩ := by
  have hfeed : '\n' ∉ List.replicate k.indent ' ' := by
    intro hmem
    exact absurd (List.eq_of_mem_replicate hmem) (by decide)
  have hends := habove.append (Text.endsLine_unlines (k.comment.lines.map (commentLine k.indent)))
  rw [place, toList_before, hends.placeBehind_append hfeed, habove.lines_append,
    Text.lines_unlines (hc.isLine k.indent), List.length_append, List.length_map,
    List.length_replicate]

/-- The comment and the key are shown. -/
theorem exists_shows (hc : k.comment.IsTidy) (h : k.IsShown hidden) :
    ∃ more, (k.margin hidden).Shows (Text.lines k.above.toList).length
      (k.comment.lines.map (commentLine k.indent) ++ [List.replicate k.indent ' ' ++ more]) := by
  obtain ⟨more, below, hlines⟩ := exists_lines hc h
  refine ⟨more, Margin.shows_of_lines hlines fun line hfirst hlast => h.lines line ?_ ?_⟩
  · have hplace : Text.placeBehind (k.above.toList ++ []) = _ :=
      h.above.placeBehind_append List.not_mem_nil
    rw [List.append_nil] at hplace
    rw [hplace]
    exact hfirst
  · rw [place_eq hc h.above]
    simpa [Nat.add_assoc] using hlast

/-- The comment is read behind the one directly above it. -/
theorem parse_found (hc : k.comment.IsTidy) (h : k.IsShown hidden) :
    Comment.parse (k.found hidden) =
      ⟨((k.margin hidden).commentsUpTo (Text.lines k.above.toList).length).map
        (fun l => String.ofList (Comment.stripMarker l)) ++ k.comment.lines⟩ := by
  obtain ⟨more, hshows⟩ := exists_shows hc h
  have hfeeds : ∀ l ∈ (k.margin hidden).lines, '\n' ∉ l :=
    fun l hl => Text.not_mem_linesFrom List.not_mem_nil hl
  rw [found, place_eq hc h.above]
  dsimp only
  rw [Margin.head_key hc hshows, Comment.parse_intercalate, List.map_append, hc.map_stripMarker]
  intro l hl
  rcases List.mem_append.mp hl with hl | hl
  · exact Margin.isMarked_commentsUpTo hfeeds _ l hl
  · exact hc.isMarked l hl

/-- What is found above the key is the comment exactly if that is tidy and no other one is directly
above it. -/
theorem parse_found_eq_iff (h : k.IsShown hidden) :
    Comment.parse (k.found hidden) = k.comment ↔ k.comment.IsTidy ∧ k.StandsAlone hidden := by
  have halone (hc : k.comment.IsTidy) :
      Comment.parse (k.found hidden) = k.comment ↔ k.StandsAlone hidden := by
    rw [parse_found hc h, StandsAlone, ← Margin.commentsUpTo_eq_nil_iff, ← List.map_eq_nil_iff,
      ← List.append_left_eq_self]
    exact ⟨fun hcomment => congrArg Comment.lines hcomment, congrArg Comment.mk⟩
  constructor
  · intro hcomment
    -- whatever is found is tidy
    have hc : k.comment.IsTidy := by
      rw [← hcomment]
      exact Margin.isTidy_head (fun l hl => Text.not_mem_linesFrom List.not_mem_nil hl) _ _
    exact ⟨hc, (halone hc).mp hcomment⟩
  · rintro ⟨hc, hstands⟩
    exact (halone hc).mpr hstands

/-- No comment is directly above if the text above does not end with one. -/
theorem standsAlone_of_getLast? (hc : k.comment.IsTidy) (h : k.IsShown hidden)
    (hlast : ∀ line ∈ (Text.lines k.above.toList).getLast?, Margin.isCommentLine line = false) :
    k.StandsAlone hidden := by
  intro line hline
  obtain ⟨more, below, hlines⟩ := exists_lines hc h
  refine hlast line ?_
  cases habove : (Text.lines k.above.toList).length with
  | zero =>
    rw [habove] at hline
    cases hline
  | succ n =>
    have hget := Margin.getElem?_of_line? hline
    rw [hlines, List.getElem?_append_left (by omega)] at hget
    rw [Option.mem_def, List.getLast?_eq_getElem?]
    exact hget

/-- **Written comments are found again.** A comment of trimmed lines without line feeds is written
above a key, at any indentation and in any text: what stands above is empty or ends in a line feed
behind a line that is no comment, and none of the lines of the comment and of the key is hidden.
What is found above the place of the key is read as the comment, and it is empty exactly if the
comment is. -/
theorem written_comment_found (hc : k.comment.IsTidy) (h : k.IsShown hidden)
    (hlast : ∀ line ∈ (Text.lines k.above.toList).getLast?, Margin.isCommentLine line = false) :
    Comment.parse (k.found hidden) = k.comment ∧
      (k.found hidden = "" ↔ k.comment = .empty) := by
  have hcomment := (parse_found_eq_iff h).mpr ⟨hc, standsAlone_of_getLast? hc h hlast⟩
  refine ⟨hcomment, ?_⟩
  rw [← String.isEmpty_iff, ← Comment.parse_eq_empty_iff, hcomment]

/-- A key in a mapping, with a comment of three lines. -/
def nestedKey : CommentedKey where
  above := "users:\n"
  indent := 2
  comment := ⟨["by  name", "", "# and age"]⟩
  key := "find"
  behind := ":\n    sql: x\n"

/-- A comment with an empty line and a marker in it is found. -/
theorem written_comment_found_of_three_lines :
    Comment.parse (nestedKey.found [(1, 1), (6, 6)]) = ⟨["by  name", "", "# and age"]⟩ := by
  have hshown : nestedKey.IsShown [(1, 1), (6, 6)] :=
    ⟨by decide +kernel, by decide, by decide +kernel⟩
  exact (written_comment_found (by decide +kernel) hshown (by decide +kernel)).1

end CommentedKey

end QueryBook
