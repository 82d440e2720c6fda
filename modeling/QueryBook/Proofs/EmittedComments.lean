import QueryBook.Proofs.ReadQueries
import QueryBook.Proofs.SharedStructs
import QueryBook.Proofs.SqlLiterals

/-!
# Comments in generated code

Code for a query has comments of two kinds. Documentation is written line by line, each line behind
a marker, and so never leaves its comment. The label of a query is written as it is, into the heading
of a section and into the SQL. It stays in its line exactly if it holds no line feed, which is so
unless it is a name with one.
-/

namespace QueryBook

namespace Text

/-- A line is the first one of a text, exactly if it holds no line feed. -/
theorem splitOnChar_line_iff (line rest : String) :
    splitOnChar '\n' (line ++ "\n" ++ rest).toList = line.toList :: splitOnChar '\n' rest.toList ↔
      '\n' ∉ line.toList := by
  rw [String.toList_append, String.toList_append, List.append_assoc]
  exact splitOnChar_append_eq_cons_iff

end Text

namespace Code

/-! ## Comment lines -/

/-- Whether a line is a comment: after tabs it begins with the marker. -/
def IsCommentLine (line : List Char) : Prop := ['/', '/'] <+: line.dropWhile (· = '\t')

instance (line : List Char) : Decidable (IsCommentLine line) :=
  inferInstanceAs (Decidable (_ <+: _))

/-- What is put behind a comment line is in the comment. -/
theorem IsCommentLine.append {line : List Char} (h : IsCommentLine line) (more : List Char) :
    IsCommentLine (line ++ more) := by
  obtain ⟨rest, hrest⟩ := h
  refine ⟨rest ++ more, ?_⟩
  rw [List.dropWhile_append, ← hrest, if_neg (by simp), List.append_assoc]

/-- Whether a text is made of whole comment lines. -/
def IsCommentBlock (text : String) : Prop :=
  ∃ ls, Text.splitOnChar '\n' text.toList = ls ++ [[]] ∧ ∀ l ∈ ls, IsCommentLine l

/-- The markers of documentation: of structs and methods, and of the fields in a struct. -/
def markers : List String := ["// ", "\t// "]

/-- Markers begin comment lines, also without the blank at their end. -/
theorem isCommentLine_marker : ∀ marker ∈ markers, '\n' ∉ marker.toList ∧
    IsCommentLine marker.toList ∧ '\n' ∉ (Text.trimEnd marker).toList ∧
      IsCommentLine (Text.trimEnd marker).toList := by
  decide

/-- The characters of lines. -/
theorem toList_lines (ls : List String) : (lines ls).toList = Text.unlines (ls.map (·.toList)) := by
  induction ls with
  | nil => rfl
  | cons l rest ih =>
    rw [lines_cons, String.toList_append, String.toList_append, ih, List.map_cons,
      Text.unlines_cons, List.append_assoc]
    rfl

/-- A line of a comment behind its marker. -/
def markedLine (marker line : String) : String :=
  if line.isEmpty then Text.trimEnd marker else marker ++ line

/-- A line without line feeds is a comment line behind its marker. -/
theorem isCommentLine_markedLine {marker : String} (hmarker : marker ∈ markers) {line : String}
    (h : '\n' ∉ line.toList) :
    '\n' ∉ (markedLine marker line).toList ∧ IsCommentLine (markedLine marker line).toList := by
  obtain ⟨hfeed, hline, hfeed', hline'⟩ := isCommentLine_marker marker hmarker
  unfold markedLine
  split
  · exact ⟨hfeed', hline'⟩
  · rw [String.toList_append, List.mem_append, not_or]
    exact ⟨⟨hfeed, h⟩, hline.append _⟩

/-- A comment without line feeds in its lines is written in comment lines. -/
theorem isCommentBlock_commentLines {marker : String} (hmarker : marker ∈ markers)
    {comment : List String} (h : ∀ line ∈ comment, '\n' ∉ line.toList) :
    IsCommentBlock (commentLines marker comment) := by
  have hlines : commentLines marker comment = lines (comment.map (markedLine marker)) := rfl
  refine ⟨(comment.map (markedLine marker)).map (·.toList), ?_, ?_⟩
  · rw [hlines, toList_lines]
    refine Text.splitOnChar_unlines ?_
    simp only [List.forall_mem_map]
    exact fun line hmem => (isCommentLine_markedLine hmarker (h line hmem)).1
  · simp only [List.forall_mem_map]
    exact fun line hmem => (isCommentLine_markedLine hmarker (h line hmem)).2

/-! ## Whole lines -/

/-- Whether what follows a text begins a line. -/
def EndsLine (text : String) : Prop := ∀ c ∈ text.toList.getLast?, c = '\n'

theorem EndsLine.append {before text : String} (hbefore : EndsLine before) (h : EndsLine text) :
    EndsLine (before ++ text) := by
  rw [EndsLine, String.toList_append]
  exact Text.EndsLine.append hbefore h

/-- A line feed ends a line. -/
theorem endsLine_feed (text : String) : EndsLine (text ++ "\n") := by
  rw [EndsLine, String.toList_append]
  exact Text.endsLine_feed _

/-- Lines end a line. -/
theorem endsLine_lines (ls : List String) : EndsLine (lines ls) := by
  rw [EndsLine, toList_lines]
  exact Text.endsLine_unlines _

/-- Texts that end lines end a line together. -/
theorem endsLine_join {ts : List String} (h : ∀ t ∈ ts, EndsLine t) : EndsLine (String.join ts) := by
  induction ts with
  | nil => nofun
  | cons t rest ih =>
    rw [List.forall_mem_cons] at h
    rw [String.join_cons]
    exact h.1.append (ih h.2)

/-- A text stands in another from the beginning of a line on. -/
def StandsIn (part whole : String) : Prop :=
  ∃ before after, whole = before ++ part ++ after ∧ EndsLine before

theorem StandsIn.trans {part middle whole : String} (h : StandsIn part middle)
    (h' : StandsIn middle whole) : StandsIn part whole := by
  obtain ⟨before, after, rfl, hends⟩ := h
  obtain ⟨before', after', rfl, hends'⟩ := h'
  exact ⟨before' ++ before, after ++ after', by simp only [String.append_assoc], hends'.append hends⟩

/-! ## Documentation -/

/-- The documentation of a struct, each comment with its marker. -/
def structDocumentation (s : ShapeView) : List (String × List String) :=
  ("// ", s.comment) :: s.fields.map fun f => ("\t// ", f.comment)

/-- The documentation of a struct that is declared here. -/
def declaredDocumentation (shape : Option ShapeView) : List (String × List String) :=
  match shape with
  | some s => if s.declare then structDocumentation s else []
  | none => []

/-- The documentation in the section of a query. -/
def documentation (v : QueryView) : List (String × List String) :=
  declaredDocumentation v.out ++ declaredDocumentation v.bundle ++ [("// ", v.comment)]

/-- The lines of a field end a line. -/
theorem endsLine_structField (f : FieldView) : EndsLine (structField f) :=
  (endsLine_lines _).append (endsLine_lines _)

/-- The documentation of a struct stands in its declaration. -/
theorem standsIn_structDeclaration {s : ShapeView} :
    ∀ p ∈ structDocumentation s, StandsIn (commentLines p.1 p.2) (structDeclaration s) := by
  intro p hp
  rcases List.mem_cons.mp hp with rfl | hp
  · refine ⟨"", lines ["type " ++ s.typeName ++ " struct \x7b"] ++
      String.join (s.fields.map structField) ++ "\x7d", ?_, nofun⟩
    rw [structDeclaration]
    simp only [String.append_assoc, String.empty_append]
  · obtain ⟨f, hf, rfl⟩ := List.mem_map.mp hp
    obtain ⟨earlier, later, hfields⟩ := List.append_of_mem hf
    refine ⟨commentLines "// " s.comment ++ lines ["type " ++ s.typeName ++ " struct \x7b"] ++
      String.join (earlier.map structField), lines ["\t" ++ f.name ++ " " ++ f.type] ++
        String.join (later.map structField) ++ "\x7d", ?_, ?_⟩
    · rw [structDeclaration, hfields, List.map_append, List.map_cons, String.join_append,
        String.join_cons, structField]
      simp only [String.append_assoc]
    · refine ((endsLine_lines _).append (endsLine_lines _)).append (endsLine_join ?_)
      exact List.forall_mem_map.mpr fun f' _ => endsLine_structField f'

/-- What declares a struct ends a line. -/
theorem endsLine_declared (shape : Option ShapeView) : EndsLine (declared shape) := by
  unfold declared
  split
  · split
    · exact endsLine_feed _
    · nofun
  · nofun

/-- The documentation of a struct stands in what declares it. -/
theorem standsIn_declared {shape : Option ShapeView} :
    ∀ p ∈ declaredDocumentation shape, StandsIn (commentLines p.1 p.2) (declared shape) := by
  intro p hp
  cases shape with
  | none => cases hp
  | some s =>
    unfold declaredDocumentation at hp
    unfold declared
    dsimp only at hp ⊢
    split at hp
    · next hdeclare =>
      rw [if_pos hdeclare]
      exact (standsIn_structDeclaration p hp).trans ⟨"\n", "\n", rfl, endsLine_feed ""⟩
    · cases hp

/-- The heading of the section of a query. -/
def sectionHeading (v : QueryView) : String := "// *** " ++ v.label ++ " ***"

/-- The section of a query begins with the heading, structs and the comment on the method. -/
theorem querySection_eq (v : QueryView) : ∃ method, querySection v =
    lines ["", sectionHeading v] ++ declared v.out ++ declared v.bundle ++ "\n" ++
      commentLines "// " v.comment ++ method := by
  unfold querySection
  refine ⟨lines ["func (q Queries) " ++ v.method ++ "(" ++ signature v ++ ") " ++ returns v ++
    " \x7b"] ++ lines (body v) ++ lines ["\x7d"], ?_⟩
  simp only [sectionHeading, String.append_assoc]

/-- The section of a query begins with an empty line. The heading is the next line exactly if the
label in it holds no line feed. -/
theorem exists_sectionHeading (v : QueryView) :
    ∃ rest, querySection v = "\n" ++ (sectionHeading v ++ "\n" ++ rest) ∧
      (Text.splitOnChar '\n' (querySection v).toList =
          [] :: (sectionHeading v).toList :: Text.splitOnChar '\n' rest.toList ↔
        '\n' ∉ v.label.toList) := by
  obtain ⟨method, hsection⟩ := querySection_eq v
  let rest := declared v.out ++ declared v.bundle ++ "\n" ++ commentLines "// " v.comment ++ method
  have hfeed : querySection v = "\n" ++ (sectionHeading v ++ "\n" ++ rest) := by
    rw [hsection, lines_cons, lines_cons]
    simp [lines, rest, String.append_assoc]
  have hempty (text : List Char) :
      Text.splitOnChar '\n' ('\n' :: text) = [] :: Text.splitOnChar '\n' text := by
    rw [Text.splitOnChar, if_pos rfl]
  have hlabel : '\n' ∉ (sectionHeading v).toList ↔ '\n' ∉ v.label.toList := by
    simp [sectionHeading]
  have hchars : (querySection v).toList = '\n' :: (sectionHeading v ++ "\n" ++ rest).toList := by
    rw [hfeed, String.toList_append]
    rfl
  refine ⟨rest, hfeed, ?_⟩
  rw [hchars, hempty, List.cons_inj_right, Text.splitOnChar_line_iff, hlabel]

/-- The documentation of a query stands in its section. -/
theorem standsIn_querySection {v : QueryView} :
    ∀ p ∈ documentation v, StandsIn (commentLines p.1 p.2) (querySection v) := by
  intro p hp
  obtain ⟨method, hsection⟩ := querySection_eq v
  have hheading := endsLine_lines ["", sectionHeading v]
  have hout := hheading.append (endsLine_declared v.out)
  rw [hsection]
  -- The comment is of the result struct, of the parameter struct or of the method.
  rcases List.mem_append.mp hp with hp | hp
  · rcases List.mem_append.mp hp with hp | hp
    · refine (standsIn_declared p hp).trans ⟨lines ["", sectionHeading v],
        declared v.bundle ++ "\n" ++ commentLines "// " v.comment ++ method, ?_, hheading⟩
      simp only [String.append_assoc]
    · refine (standsIn_declared p hp).trans ⟨lines ["", sectionHeading v] ++ declared v.out,
        "\n" ++ commentLines "// " v.comment ++ method, ?_, hout⟩
      simp only [String.append_assoc]
  · rw [List.mem_singleton.mp hp]
    exact ⟨_, method, rfl, endsLine_feed _⟩

/-- The section of a query ends a line. -/
theorem endsLine_querySection (v : QueryView) : EndsLine (querySection v) := by
  have hlast : lines ["\x7d"] = "\x7d" ++ "\n" := rfl
  rw [querySection, hlast, ← String.append_assoc]
  exact endsLine_feed _

/-- The file up to the first section ends a line. -/
theorem endsLine_fileHead (m : Metadata) (file : String) (imports : ImportSet)
    (views : List QueryView) : EndsLine (fileHead m file imports views) := by
  refine ((endsLine_lines _).append (endsLine_lines _)).append ?_
  split
  · nofun
  · exact endsLine_lines _

/-- The section of every view stands in the file. -/
theorem standsIn_ofQueries (m : Metadata) (naming : Naming) (file : String) (imports : ImportSet)
    {queries : List Query} {v : QueryView} (hv : v ∈ QueryView.ofQueries naming [] queries) :
    StandsIn (querySection v) (ofQueries m naming file imports queries) := by
  obtain ⟨earlier, later, hviews⟩ := List.append_of_mem hv
  refine ⟨_, _, ofQueries_eq m file imports hviews, (endsLine_fileHead m file imports _).append ?_⟩
  exact endsLine_join (List.forall_mem_map.mpr fun v' _ => endsLine_querySection v')

end Code

/-! ## Comments that were read -/

namespace Code

/-- The documentation of a struct is made of the comments of its block, in comment lines. -/
theorem isCommentBlock_structDocumentation {fields : Fields} (h : fields.IsSound) (naming : Naming)
    (before : List String) (query role : String) :
    ∀ p ∈ structDocumentation (.ofFields naming before fields query role),
      IsCommentBlock (commentLines p.1 p.2) := by
  intro p hp
  rcases List.mem_cons.mp hp with rfl | hp
  · exact isCommentBlock_commentLines (by simp [markers]) fun line hl => (h.comment line hl).1
  · obtain ⟨f, hf, rfl⟩ := List.mem_map.mp hp
    have hcomment : f.comment ∈ fields.list.map (·.comment.lines) := by
      rw [← FieldView.map_comment_ofFields naming [] []]
      exact List.mem_map_of_mem hf
    obtain ⟨f', hf', heq⟩ := List.mem_map.mp hcomment
    refine isCommentBlock_commentLines (by simp [markers]) fun line hline => ?_
    exact ((h.fields f' hf').comment line (heq ▸ hline)).1

/-- The documentation of a struct that may be declared is made of comment lines if that of the struct
is. -/
theorem isCommentBlock_declaredDocumentation {shape : Option ShapeView}
    (h : ∀ s ∈ shape, ∀ p ∈ structDocumentation s, IsCommentBlock (commentLines p.1 p.2)) :
    ∀ p ∈ declaredDocumentation shape, IsCommentBlock (commentLines p.1 p.2) := by
  intro p hp
  unfold declaredDocumentation at hp
  split at hp
  · split at hp
    · exact h _ rfl p hp
    · cases hp
  · cases hp

/-- The documentation of a query that was read is made of comment lines. -/
theorem isCommentBlock_documentation {q : Query} (h : q.IsSound) (naming : Naming)
    (before : List String) : ∀ p ∈ documentation (QueryView.ofQuery naming before q),
      IsCommentBlock (commentLines p.1 p.2) := by
  intro p hp
  rcases List.mem_append.mp hp with hp | hp
  · rcases List.mem_append.mp hp with hp | hp
    · refine isCommentBlock_declaredDocumentation ?_ p hp
      show ∀ s ∈ QueryView.outOf naming before q, _
      unfold QueryView.outOf
      split
      · nofun
      · rintro s ⟨⟩
        exact isCommentBlock_structDocumentation h.out _ _ _ _
    · refine isCommentBlock_declaredDocumentation ?_ p hp
      show ∀ s ∈ QueryView.bundleOf naming _ q, _
      unfold QueryView.bundleOf
      split
      · rintro s ⟨⟩
        exact isCommentBlock_structDocumentation h.params _ _ _ _
      · nofun
  · rw [List.mem_singleton.mp hp]
    exact isCommentBlock_commentLines (by simp [markers]) fun line hl => (h.comment line hl).1

end Code

/-! ## Labels -/

/-- Whether a query has a name without a line feed or a comment that begins with text. A carriage
return in the name does not count: it ends no comment of the code and no line of a raw string,
unlike in diagnostics, whose one-line form breaks at it. -/
def Query.HasLineLabel (q : Query) : Prop :=
  '\n' ∉ q.name.toList ∨ ∃ line ∈ q.comment.firstLine?, Text.isAllBlank line = false

instance (q : Query) : Decidable q.HasLineLabel := inferInstanceAs (Decidable (_ ∨ _))

/-- A label is a name or a line of a comment, so it holds a line feed exactly if it is a name that
does. -/
theorem QueryView.feed_not_mem_labelOf {q : Query} (h : q.comment.IsTidy) :
    '\n' ∉ (labelOf q).toList ↔ q.HasLineLabel := by
  unfold labelOf Query.HasLineLabel
  cases hfirst : q.comment.firstLine? with
  | none => simp
  | some line =>
    have hfeed : '\n' ∉ line.toList := (h line (List.mem_of_mem_head? hfirst)).1
    cases hblank : Text.isAllBlank line with
    | true => simp [hblank]
    | false => simp [hblank, hfeed]

/-- The SQL of a query is a line with the label before the SQL of the document, exactly if the label
holds no line feed. -/
theorem QueryView.splitOnChar_sql_iff (naming : Naming) (declared : List String) (q : Query) :
    Text.splitOnChar '\n' (ofQuery naming declared q).sql.toList =
        ("-- " ++ (ofQuery naming declared q).label).toList ::
          Text.splitOnChar '\n' (Text.trimEnd q.sql.text).toList ↔
      '\n' ∉ (ofQuery naming declared q).label.toList := by
  have hsql : (ofQuery naming declared q).sql =
      "-- " ++ (ofQuery naming declared q).label ++ "\n" ++ Text.trimEnd q.sql.text := rfl
  rw [hsql, Text.splitOnChar_line_iff]
  simp

/-- **When a label stays in its lines.** For every query of a document that is read, the heading of
its section is one line, and its SQL is one line with the label before the SQL of the document,
exactly if the label holds no line feed. It is so unless the label is a name with one. The comments
that document the query, its structs and their fields stand on lines of their own, which all begin
with the marker. Lines end at line feeds only, as they do in the code: a carriage return in the
label stays in its line. -/
theorem label_stays_in_lines_iff [Diagnosis] {source : String} {queries : Queries}
    (h : Queries.parse source = .ok queries) (m : Metadata) (naming : Naming) (file : String)
    (imports : ImportSet) {q : Query} (hq : q ∈ queries.list) :
    ∃ declared, ∃ v ∈ QueryView.ofQueries naming [] queries.list,
      v = QueryView.ofQuery naming declared q ∧
      Code.StandsIn (Code.querySection v) (Code.ofQueries m naming file imports queries.list) ∧
      ('\n' ∉ v.label.toList ↔ q.HasLineLabel) ∧
      (∃ rest, Code.querySection v = "\n" ++ (Code.sectionHeading v ++ "\n" ++ rest) ∧
        (Text.splitOnChar '\n' (Code.querySection v).toList =
            [] :: (Code.sectionHeading v).toList :: Text.splitOnChar '\n' rest.toList ↔
          '\n' ∉ v.label.toList)) ∧
      (Text.splitOnChar '\n' v.sql.toList =
          ("-- " ++ v.label).toList ::
            Text.splitOnChar '\n' (Text.trimEnd q.sql.text).toList ↔
        '\n' ∉ v.label.toList) ∧
      ∀ p ∈ Code.documentation v,
        Code.StandsIn (Code.commentLines p.1 p.2) (Code.querySection v) ∧
          Code.IsCommentBlock (Code.commentLines p.1 p.2) := by
  have hsound := Queries.isSound_of_parse h q hq
  obtain ⟨declared, hv⟩ := QueryView.exists_ofQueries naming hq []
  refine ⟨declared, _, hv, rfl, Code.standsIn_ofQueries m naming file imports hv,
    QueryView.feed_not_mem_labelOf hsound.comment, Code.exists_sectionHeading _,
    QueryView.splitOnChar_sql_iff naming declared q, ?_⟩
  intro p hp
  exact ⟨Code.standsIn_querySection p hp, Code.isCommentBlock_documentation hsound _ _ p hp⟩

/-- Queries with a line feed in the name of one, under a comment, and in the SQL of the other. -/
def commentedFeed : String :=
  "# all rows\n\"a\\nb\":\n  sql: x\n  out:\n    # one\n    # two\n    c: int\n" ++
    "b:\n  type: exec\n  sql: \"x\\ny\"\n"

/-- Their labels stay in their lines. -/
theorem label_stays_in_lines_of_comment :
    ∃ queries, Queries.parse commentedFeed = .ok queries ∧
      queries.names = ["a\nb", "b"] ∧ ∀ q ∈ queries.list,
        ∃ v ∈ QueryView.ofQueries .standard [] queries.list, v.name = q.name ∧
          '\n' ∉ v.label.toList ∧
          Text.splitOnChar '\n' v.sql.toList = ("-- " ++ v.label).toList ::
            Text.splitOnChar '\n' (Text.trimEnd q.sql.text).toList := by
  have h : Queries.parse commentedFeed =
      .ok ((Queries.parse commentedFeed).toOption.getD .empty) :=
    Grammar.parse_eq_ok (by decide +kernel)
  have hlabels : ∀ q ∈ ((Queries.parse commentedFeed).toOption.getD .empty).list,
      q.HasLineLabel := by decide +kernel
  refine ⟨_, h, by decide +kernel, ?_⟩
  intro q hq
  obtain ⟨declared, v, hv, rfl, -, hlabel, -, hsql, -⟩ :=
    label_stays_in_lines_iff h { package := "db" } .standard "a.yaml" .empty hq
  have hline := hlabel.mpr (hlabels q hq)
  exact ⟨_, hv, rfl, hline, hsql.mpr hline⟩

/-- A query with a line feed in its name. -/
def namedWithFeed : String := "\"a\\nb\":\n  type: exec\n  sql: x\n"

/-- The query is accepted, and its label is not a line. -/
theorem label_leaves_line_of_named_with_feed :
    ¬ ∀ (source : String) (queries : Queries), Queries.parse source = .ok queries →
      ∀ v ∈ QueryView.ofQueries .standard [] queries.list, '\n' ∉ v.label.toList := by
  intro stays
  have h : Queries.parse namedWithFeed = .ok ((Queries.parse namedWithFeed).toOption.getD .empty) :=
    Grammar.parse_eq_ok (by decide +kernel)
  have := stays _ _ h
  revert this
  decide +kernel

end QueryBook
