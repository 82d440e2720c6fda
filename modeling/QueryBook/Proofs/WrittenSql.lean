import QueryBook.Proofs.NestedSql
import QueryBook.Proofs.UnquotedTexts

/-!
# Written SQL

SQL that is written as the last value of a document is read back with its text, unless a block is
written for a text with a carriage return or a NUL. What counts is the scalar that is read where the
SQL is written, whatever the text of the SQL makes of the rest of the document.
-/

namespace QueryBook

open Text (unlines)
open Yaml

/-! ## Scalars of an outline -/

/-- Whether a node is that of a scalar that was read. -/
def Node.IsReadFrom (n : Node) (r : ScalarReading) : Prop :=
  ∃ info, n = .scalar info r.text (.ofStyle r.style) ∧ info.position = r.position

/-- The node of a value that is no alias is read from its token. -/
theorem Leaf.isReadFrom {m : Margin} {v : Leaf} (hv : v.references = []) {k blanks : Nat}
    {position : Position} {seen : List String} {defined : List (Nat × Node)} {n : Node}
    (hn : v.node m k position blanks seen defined = some n) {r : ScalarReading}
    (hr : r.token = v.token k position blanks) : n.IsReadFrom r := by
  cases v with
  | text t =>
    cases hn
    obtain ⟨hkind, hposition⟩ := Token.mk.inj hr
    obtain ⟨hstyle, htext⟩ := TokenKind.scalar.inj hkind
    exact ⟨_, by rw [hstyle, htext], hposition.symm⟩
  | literal t =>
    cases hn
    obtain ⟨hkind, hposition⟩ := Token.mk.inj hr
    obtain ⟨hstyle, htext⟩ := TokenKind.scalar.inj hkind
    exact ⟨_, by rw [hstyle, htext, ScalarStyle.ofStyle], hposition.symm⟩
  | reference name => cases hv

/-- Before no empty line a block reads as its text. -/
theorem Leaf.read_zero (text : String) : read text 0 = text := by
  rw [read, Block.withBlanks, List.replicate_zero, ite_self, List.append_nil, String.ofList_toList]

namespace Outline

variable {o : Outline} {source : String}

/-- The scalars among the tokens of a legible outline are read for its document. -/
theorem exists_scalar (ho : o.Legible 0) (hne : o ≠ done)
    (hsource : source.toList = unlines (o.lines 0)) {es : List Event}
    (hevents : o.events 0 1 o.finish 0 [] = some es) {t : Token} (ht : t ∈ o.tokens 0 1 0 true 0)
    (hscalar : t.isScalar = true) :
    ∃ r ∈ Document.scalars source, r.token = t ∧
      r.lexer.cursor.IsIn (linesOf source.toList) ∧ ∃ c, r.EndsAt c := by
  have hmap : (Document.scalars source).map (·.token) =
      (Yaml.tokens source.toList).filter (·.isScalar) := by
    obtain ⟨more, hprefix⟩ := (places_tokens source.toList).2.1
    have hread : Document.scalars source =
        (Lexer.ofSource (source.toList.takeWhile (· ≠ '\x00'))).readings.take
          ((Yaml.tokens source.toList).countP (·.isScalar)) := by
      unfold Document.scalars
      dsimp only
      rw [hsource, document_tokens ho hne, hevents]
      rfl
    rw [hread, List.map_take, ← hprefix, List.countP_eq_length_filter, List.take_left]
  have hmem : t ∈ (Document.scalars source).map (·.token) := by
    rw [hmap, hsource, tokens_lines ho hne]
    exact List.mem_filter.mpr ⟨List.mem_append_left _ ht, hscalar⟩
  obtain ⟨r, hr, htoken⟩ := List.mem_map.mp hmem
  have hread := events?_tokens ho hne
  rw [← hsource, hevents, Option.map_some] at hread
  obtain ⟨c, hbehind⟩ := Document.isBehind_scalars hread
  exact ⟨r, hr, htoken, hbehind.scalars r hr⟩

end Outline

/-! ## Where SQL is read -/

/-- A character that is nowhere else stands where it is. -/
theorem Text.getElem?_eq_iff_of_not_mem {before behind : List Char} {c : Char}
    (hbefore : c ∉ before) (hbehind : c ∉ behind) {i : Nat} :
    (before ++ c :: behind)[i]? = some c ↔ i = before.length := by
  induction before generalizing i with
  | nil =>
    cases i with
    | zero => simp
    | succ i => simpa using fun hget => absurd (List.mem_of_getElem? hget) hbehind
  | cons x before ih =>
    rw [List.mem_cons, not_or] at hbefore
    cases i with
    | zero => simpa using Ne.symm hbefore.1
    | succ i => simpa using ih hbefore.2

namespace Nesting

variable {s : Sql} {nesting : Nesting} {indent : Nat}

/-- The lines above SQL in legible surroundings hold no line break. -/
theorem isBreak_of_mem_above (h : nesting.Legible indent) :
    ∀ l ∈ nesting.above indent, ∀ ch ∈ l, isBreak ch = false := by
  induction nesting generalizing indent with
  | innermost before => exact fun l hl ch hch => (h.1.inLine l hl ch hch).1
  | inside before heading anchor nesting ih =>
    obtain ⟨⟨hbefore, -⟩, hheading, hanchor, hnesting⟩ := h
    intro l hl ch hch
    rw [above, List.mem_append, List.mem_append] at hl
    rcases hl with hl | hl | hl
    · exact (hbefore.inLine l hl ch hch).1
    · exact (hheading.inLine (inLine_anchorText hanchor) l hl ch hch).1
    · exact ih hnesting l hl ch hch

/-- The line on which a block with SQL begins. -/
def headerLine (s : Sql) (nesting : Nesting) : List Char :=
  List.replicate (nesting.depth 0) ' ' ++ "sql: ".toList ++ Sql.header s.text.toList

/-- SQL that is written as a block begins on the line behind those above it. -/
theorem linesOf_document (h : nesting.Legible 0) (hs : s.style = .literal) :
    linesOf (nesting.document s 0).toList = nesting.above 0 ++ nesting.headerLine s ::
      linesOf (unlines (Sql.blockLines s.text.toList (nesting.depth 0 + 2))) := by
  have hsql : Outline.ofSql s = .literal s.text := by rw [Outline.ofSql, hs]
  have hkey : ("sql: ".toList.all (!isBreak ·)) = true := by decide
  have hline : ∀ ch ∈ nesting.headerLine s, isBreak ch = false := by
    intro ch hch
    rw [headerLine, List.mem_append, List.mem_append] at hch
    rcases hch with (hch | hch) | hch
    · rw [List.eq_of_mem_replicate hch]
      rfl
    · simpa using List.all_eq_true.mp hkey ch hch
    · exact (inLine_header hch).1
  have hlines : (nesting.outline s).lines 0 = (nesting.above 0 ++ [nesting.headerLine s]) ++
      Sql.blockLines s.text.toList (nesting.depth 0 + 2) := by
    rw [lines_outline, hsql, headerLine, Leaf.inline, Leaf.lines]
    simp
  rw [toList_document, hlines, Text.unlines_append, linesOf_unlines_append, List.append_assoc,
    List.singleton_append]
  rw [List.forall_mem_append]
  exact ⟨isBreak_of_mem_above h, List.forall_mem_singleton.mpr hline⟩

/-- It is on the line of the place where the SQL is written. -/
theorem lineAt_place (h : nesting.Legible 0) (hs : s.style = .literal) :
    Text.lineAt (linesOf (nesting.document s 0).toList) (nesting.place 0 1).line =
      nesting.headerLine s := by
  rw [linesOf_document h hs, place]
  refine Text.lineAt_eq (Nat.ne_zero_of_lt (Nat.lt_add_right _ Nat.one_pos)) ?_
  rw [Nat.add_sub_cancel_left, List.getElem?_append_right (Nat.le_refl _), Nat.sub_self]
  rfl

/-- Behind it come the empty lines before the text. -/
theorem lineAt_below (h : nesting.Legible 0) (hs : s.style = .literal)
    (hunbroken : IsUnbroken s.text) {line : Nat} (hfirst : (nesting.place 0 1).line < line)
    (hlast : line < (nesting.place 0 1).line + 1 +
      Block.blanksBefore (Sql.bodyLines s.text.toList)) :
    Text.lineAt (linesOf (nesting.document s 0).toList) line = [] := by
  obtain ⟨i, rfl⟩ := Nat.exists_eq_add_of_lt hfirst
  have hlines : linesOf (unlines (Sql.blockLines s.text.toList (nesting.depth 0 + 2))) =
      Sql.blockLines s.text.toList (nesting.depth 0 + 2) := by
    have hline : ∀ l ∈ Sql.blockLines s.text.toList (nesting.depth 0 + 2), ∀ ch ∈ l,
        isBreak ch = false := by
      intro l hl ch hch
      rcases mem_blockLines hl hch with rfl | ⟨hmem, hfeed⟩
      · rfl
      · refine isBreak_eq_false hfeed ?_
        rintro rfl
        exact hunbroken.1 hmem
    have hsame := linesOf_unlines_append hline []
    rwa [List.append_nil, show linesOf [] = [] from rfl, List.append_nil] at hsame
  have hblank : (Sql.bodyLines s.text.toList)[i]? = some [] :=
    Block.getElem?_of_lt_blanksBefore (by omega)
  rw [linesOf_document h hs, hlines, place]
  refine Text.lineAt_eq (Nat.succ_ne_zero _) ?_
  have hindex : 1 + (nesting.above 0).length + i + 1 - 1 = (nesting.above 0).length + (i + 1) := by
    omega
  rw [hindex, List.getElem?_append_right (Nat.le_add_right _ _), Nat.add_sub_cancel_left,
    List.getElem?_cons_succ, Sql.blockLines, List.getElem?_append_left, List.getElem?_map, hblank]
  · rfl
  · rw [List.length_map]
    exact (List.getElem?_eq_some_iff.mp hblank).1

/-- On that line the indicator stands where the SQL is written, and only there. -/
theorem getElem?_headerLine {column : Nat} :
    (nesting.headerLine s)[column]? = some '|' ↔ column = nesting.depth 0 + 5 := by
  have hfront : '|' ∉ List.replicate (nesting.depth 0) ' ' ++ "sql: ".toList := by
    rw [List.mem_append, List.mem_replicate]
    rintro (⟨-, hspace⟩ | hkey)
    · cases hspace
    · revert hkey
      decide
  have hheader : ∃ rest, Sql.header s.text.toList = '|' :: rest ∧ '|' ∉ rest := by
    refine ⟨_, rfl, ?_⟩
    split_ifs <;> decide
  obtain ⟨rest, hrest, hmem⟩ := hheader
  rw [headerLine, hrest, Text.getElem?_eq_iff_of_not_mem hfront hmem, List.length_append,
    List.length_replicate]
  rfl

/-- What is read where SQL is written as a block has no quotes. -/
theorem not_isQuoted (h : nesting.Legible 0) (hs : s.style = .literal) {r : ScalarReading}
    {c : Cursor} (hr : r.EndsAt c)
    (hin : r.lexer.cursor.IsIn (linesOf (nesting.document s 0).toList))
    (hplace : r.lexer.mark.position = nesting.place 0 1) : ¬ r.IsQuoted := by
  have hline : r.lexer.cursor.line = (nesting.place 0 1).line := congrArg Position.line hplace
  have hcolumn : r.lexer.cursor.column = nesting.depth 0 + 5 :=
    Nat.succ.inj (congrArg Position.column hplace)
  have hnext : r.lexer.cursor.next? = some '|' := by
    refine hin.next?_eq_some ?_ (by decide)
    rw [Cursor.ahead, List.head?_drop, hline, lineAt_place h hs]
    exact getElem?_headerLine.mpr hcolumn
  cases hr with
  | plain => rintro (hstyle | hstyle) <;> cases hstyle
  | @quoted s single text c c' start =>
    rw [start] at hnext
    cases single <;> cases hnext
  | @block s literal => cases literal <;> rintro (hstyle | hstyle) <;> cases hstyle

/-- A block that is read with its text where that of the SQL begins is read where the SQL is written.
-/
theorem position_eq_place (h : nesting.Legible 0) (hs : s.style = .literal)
    (hunbroken : IsUnbroken s.text) {r : ScalarReading} {c : Cursor} (hr : r.EndsAt c)
    (hin : r.lexer.cursor.IsIn (linesOf (nesting.document s 0).toList))
    (hstyle : r.style = .literal)
    (htext : ∃ ch ∈ r.text.toList, ch ≠ '\n')
    (hposition : r.position.line =
      (nesting.place 0 1).line + 1 + Block.blanksBefore (Sql.bodyLines s.text.toList)) :
    r.lexer.mark.position = nesting.place 0 1 := by
  obtain ⟨hbar, hlater, hspaces⟩ := hr.indicator hin hstyle htext
  have hline : r.lexer.cursor.line = (nesting.place 0 1).line := by
    rcases Nat.lt_trichotomy r.lexer.cursor.line (nesting.place 0 1).line with hlt | heq | hgt
    · -- the line of the SQL would be made of spaces
      have hkey := hspaces _ hlt (by omega) 's' (by
        rw [lineAt_place h hs]
        simp [headerLine])
      cases hkey
    · exact heq
    · -- the indicator would be on an empty line
      rw [lineAt_below h hs hunbroken hgt (hposition ▸ hlater)] at hbar
      cases hbar
  rw [hline, lineAt_place h hs, getElem?_headerLine] at hbar
  exact congrArg₂ Position.mk hline (congrArg Nat.succ hbar)

/-- At the end of a document the node of SQL has its text. -/
theorem text_ofSql {m : Margin} {k : Nat} {position : Position} {seen : List String}
    {defined : List (Nat × Node)} {value : Node}
    (h : (Outline.ofSql s).node m k position 0 seen defined = some value) : value.text = s.text := by
  unfold Outline.ofSql at h
  cases hs : s.style with
  | plain =>
    rw [hs] at h
    cases h
    exact Node.text_scalar _ _
  | literal =>
    rw [hs] at h
    cases h
    exact Leaf.read_zero s.text

/-- Where SQL is written that can be read, a scalar is read with its token. -/
theorem exists_scalar (h : nesting.Legible 0) (hblank : Text.isAllBlank s.text = false)
    (hunbroken : s.style = .literal → IsUnbroken s.text) {es : List Event}
    (hevents : (nesting.outline s).events 0 1 (nesting.outline s).finish 0 [] = some es) :
    ∃ r ∈ Document.scalars (nesting.document s 0),
      r.token = (Outline.ofSql s).token (nesting.depth 0) (nesting.place 0 1) 0 ∧
        r.lexer.mark.position = nesting.place 0 1 := by
  have hlegible := legible_outline h (Outline.legible_ofSql hblank hunbroken)
  have hscalar :
      ((Outline.ofSql s).token (nesting.depth 0) (nesting.place 0 1) 0).isScalar = true := by
    unfold Outline.ofSql
    cases s.style <;> rfl
  obtain ⟨r, hr, htoken, hin, c, hends⟩ := Outline.exists_scalar hlegible outline_ne_done
    (nesting.toList_document s 0) hevents (nesting.mem_tokens_outline s 0 1 0 true) hscalar
  refine ⟨r, hr, htoken, ?_⟩
  obtain ⟨hkind, hposition⟩ := Token.mk.inj htoken
  cases hs : s.style with
  | plain =>
    have hsql : Outline.ofSql s = .text s.text := by rw [Outline.ofSql, hs]
    rw [hsql] at hkind hposition
    obtain ⟨hstyle, -⟩ := TokenKind.scalar.inj hkind
    rw [← hends.position_eq, hposition]
    · rfl
    · rw [hstyle, styleOf]
      split <;> decide
  | literal =>
    have hsql : Outline.ofSql s = .literal s.text := by rw [Outline.ofSql, hs]
    rw [hsql] at hkind hposition
    obtain ⟨hstyle, htext⟩ := TokenKind.scalar.inj hkind
    refine position_eq_place h hs (hunbroken hs) hends hin hstyle ?_
      (congrArg Position.line hposition)
    obtain ⟨ch, hch, hblank⟩ := List.all_eq_false.mp hblank
    rw [htext, Leaf.read_zero]
    refine ⟨ch, hch, ?_⟩
    rintro rfl
    exact hblank rfl

end Nesting

/-! ## Reading back -/

/-- SQL that is read is not blank. -/
theorem Sql.isAllBlank_of_ofNode {n : Node} {s : Sql} (h : Sql.ofNode n = .ok s) :
    Text.isAllBlank s.text = false := by
  obtain ⟨⟨-, c, hc, hblank⟩, rfl⟩ := Grammar.sqlOfNode_eq_ok.mp h
  rw [Text.isAllBlank, List.all_eq_false]
  exact ⟨c, hc, by simp [hblank]⟩

/-- A style is that of a quoted scalar exactly if it is one of the two with quotes. -/
theorem ScalarStyle.ofStyle_eq_quoted {style : Style} :
    ofStyle style = .quoted ↔ style = .singleQuoted ∨ style = .doubleQuoted := by
  cases style <;> decide

/-- What keys lead to has texts that fit their styles. -/
theorem Node.FitsStyle.valueAt? {keys : List String} {n value : Node} (h : n.FitsStyle)
    (hvalue : n.valueAt? keys = some value) : value.FitsStyle := by
  induction keys generalizing n with
  | nil =>
    cases hvalue
    exact h
  | cons key keys ih =>
    obtain ⟨p, hp, hvalue⟩ := Option.bind_eq_some_iff.mp hvalue
    exact ih (h.members p (mem_of_lastUnder hp).1) hvalue

/-- The text of a scalar without quotes that fits its style is unbroken. -/
theorem Node.FitsStyle.isUnbroken {info : NodeInfo} {value : String} {style : ScalarStyle}
    (h : (Node.scalar info value style).FitsStyle) (hstyle : style ≠ .quoted) :
    IsUnbroken (Node.scalar info value style).text := by
  cases h with
  | scalar htext =>
    cases style with
    | plain =>
      show IsUnbroken (if isNullText value then "" else value)
      split
      · decide
      · exact htext hstyle
    | quoted => exact absurd rfl hstyle
    | block => exact htext hstyle

namespace Sql

variable {n : Node} {s : Sql} {nesting : Nesting}

/-- Whether SQL is read back from a document that ends with it: its keys lead to the scalar that is
read where it is written, and this has its text. -/
def ReadsBack [Diagnosis] (s : Sql) (nesting : Nesting) : Prop :=
  ∃ root value, Document.read (nesting.document s 0) = .ok (some root) ∧
    root.valueAt? nesting.keys = some value ∧ value.text = s.text ∧
      ∃ r ∈ Document.scalars (nesting.document s 0),
        r.lexer.mark.position = nesting.place 0 1 ∧ value.IsReadFrom r

/-- **SQL is read back** from a document that ends with it exactly if it is no block with a carriage
return or a NUL. -/
theorem readsBack_iff [Diagnosis] (hs : Sql.ofNode n = .ok s) (h : nesting.Legible 0) :
    s.ReadsBack nesting ↔ (s.style = .literal → IsUnbroken s.text) := by
  constructor
  · rintro ⟨root, value, hread, hvalue, htext, r, hr, hplace, info, rfl, -⟩ hliteral
    obtain ⟨events, hevents, -⟩ := Document.read_eq_ok_some hread
    obtain ⟨c, hbehind⟩ := Document.isBehind_scalars hevents
    obtain ⟨hin, c', hends⟩ := hbehind.scalars r hr
    have hquoted := Nesting.not_isQuoted h hliteral hends hin hplace
    rw [← htext]
    refine ((Document.fitsStyle_of_read hread).valueAt? hvalue).isUnbroken fun hstyle => hquoted ?_
    exact ScalarStyle.ofStyle_eq_quoted.mp hstyle
  · intro hunbroken
    have hblank := isAllBlank_of_ofNode hs
    have hlegible := Nesting.legible_outline h (Outline.legible_ofSql hblank hunbroken)
    obtain ⟨es, hes⟩ := Option.isSome_iff_exists.mp (Outline.isSome_events
      (Nesting.references_outline (s := s) h) 0 1 (nesting.outline s).finish 0 [])
    obtain ⟨p, hp, hvalue⟩ := Nesting.exists_valueAt? (m := (nesting.outline s).margin es) (s := s)
      h 1 [] []
    have hread := Outline.read_lines hlegible Nesting.outline_ne_done (nesting.toList_document s 0)
    rw [hes, Option.bind_some, hp, Option.map_some] at hread
    obtain ⟨value, seen, defined, hvalue, hnode⟩ :=
      hvalue { position := (nesting.outline s).colon 0 1 }
    obtain ⟨r, hr, htoken, hplace⟩ := Nesting.exists_scalar h hblank hunbroken hes
    exact ⟨_, value, Reading.eq_ok_iff_toOption.mpr hread, hvalue, Nesting.text_ofSql hnode, r, hr,
      hplace, Leaf.isReadFrom (Nesting.references_ofSql s) hnode htoken⟩

/-- A text that begins with a space, holds a tab and ends with an empty line. -/
def indentedText : Sql := { text := " a\n\tb\n\n" }

/-- A mapping behind a pair and an empty line. -/
def secondMapping : Nesting :=
  .inside (.leaf ⟨0, .empty, "x"⟩ (.text "1") .done) ⟨1, .empty, "get"⟩ none (.innermost .done)

/-- It is read back from there. -/
theorem readsBack_of_indentedText :
    secondMapping.document indentedText 0 = "x: 1\n\nget:\n  sql: |2+\n     a\n    \tb\n\n" ∧
      indentedText.ReadsBack secondMapping := by
  have hof : Sql.ofNode (.scalar { position := .unknown } " a\n\tb\n\n" .quoted) =
      .ok indentedText := rfl
  have hlegible : secondMapping.Legible 0 :=
    ⟨⟨⟨⟨nofun, by decide +kernel, fun _ => by decide⟩, trivial, trivial⟩, rfl⟩,
      ⟨nofun, by decide +kernel, fun _ => by decide⟩, nofun, trivial, rfl⟩
  exact ⟨by decide +kernel, (readsBack_iff hof hlegible).mpr (by decide +kernel)⟩

/-- A text with a carriage return is written as a block that cannot be read at all. -/
theorem not_readsBack_of_return :
    ¬ ∀ (n : Node) (s : Sql) (nesting : Nesting), Sql.ofNode n = .ok s → nesting.Legible 0 →
      ∃ root value, Document.read (nesting.document s 0) = .ok (some root) ∧
        root.valueAt? nesting.keys = some value ∧ value.text = s.text := by
  intro h
  obtain ⟨root, -, hread, -⟩ := h (.scalar { position := .unknown } "x\ry" .quoted)
    { text := "x\ry" } (.innermost .done) rfl ⟨trivial, rfl⟩
  have hdocument : (Nesting.innermost .done).document { text := "x\ry" } 0 =
      "sql: |-\n  x\ry\n" := by decide +kernel
  have hnone : (Document.read "sql: |-\n  x\ry\n").toOption.isSome = false := by decide +kernel
  rw [← hdocument, hread] at hnone
  cases hnone

end Sql

end QueryBook
