import QueryBook.Canonical
import QueryBook.Proofs.LiteralBlocks

/-!
# Outlines

A canonical document is made of block mappings inside each other: keys with comments above them, and
behind each key a scalar, an alias or a mapping indented two columns deeper. An `Outline` is such a
document without its layout; the canonical document of queries is that of one of them.
-/

namespace QueryBook

open Text (unlines)

/-- What stands before the `:` of a pair: the empty lines and the comment above it, and its key. -/
structure Heading where
  blanks : Nat
  comment : Comment
  key : String

/-- A value that is no mapping. -/
inductive Leaf where
  /-- A scalar on the line of its key. -/
  | text (text : String)
  /-- A literal block. -/
  | literal (text : String)
  /-- An alias. -/
  | reference (name : String)

/-- The pairs of a mapping. -/
inductive Outline where
  | done
  | leaf (heading : Heading) (value : Leaf) (rest : Outline)
  | nested (heading : Heading) (anchor : Option String) (inner rest : Outline)

/-! ## Lines -/

/-- The line of a comment at an indentation. -/
def commentLine (indent : Nat) (line : String) : List Char :=
  List.replicate indent ' ' ++ '#' :: (if line.isEmpty then [] else ' ' :: line.toList)

namespace Heading

/-- The lines above a key. -/
def above (h : Heading) (indent : Nat) : List (List Char) :=
  List.replicate h.blanks [] ++ h.comment.lines.map (commentLine indent)

/-- A key as it is written. -/
def written (h : Heading) : List Char := (Canonical.scalar h.key).toList

/-- The lines of a key, with what stands behind the `:` on its line. -/
def lines (h : Heading) (indent : Nat) (value : List Char) : List (List Char) :=
  h.above indent ++ [List.replicate indent ' ' ++ (h.written ++ ':' :: value)]

/-- The number of lines above a key. -/
def height (h : Heading) : Nat := h.blanks + h.comment.lines.length

@[simp] theorem length_above (h : Heading) (indent : Nat) : (h.above indent).length = h.height := by
  simp [above, height]

end Heading

namespace Leaf

/-- What stands on the line of the key. -/
def inline : Leaf → List Char
  | text t => ' ' :: (Canonical.scalar t).toList
  | literal t => ' ' :: Sql.header t.toList
  | reference name => ' ' :: '*' :: name.toList

/-- The lines below that of the key, which stands two columns less deep. -/
def lines (indent : Nat) : Leaf → List (List Char)
  | literal t => Sql.blockLines t.toList indent
  | _ => []

theorem inline_text (t : String) : (text t).inline = ' ' :: (Canonical.scalar t).toList := rfl

theorem lines_text (indent : Nat) (t : String) : (text t).lines indent = [] := rfl

end Leaf

/-- An anchor as it stands behind a key. -/
def anchorText : Option String → List Char
  | some name => ' ' :: '&' :: name.toList
  | none => []

namespace Outline

/-- The lines of an outline at an indentation. -/
def lines (indent : Nat) : Outline → List (List Char)
  | done => []
  | leaf h v rest => h.lines indent v.inline ++ (v.lines (indent + 2) ++ rest.lines indent)
  | nested h anchor inner rest =>
    h.lines indent (anchorText anchor) ++ (inner.lines (indent + 2) ++ rest.lines indent)

/-! ## Outlines of queries -/

/-- The outline of fields. -/
def ofFields : List Field → Outline
  | [] => done
  | f :: fs => leaf ⟨0, f.comment, f.name⟩ (.text f.type) (ofFields fs)

/-- The outline of a block of fields and what follows it. -/
def ofBlock (key : String) (fs : Fields) (rest : Outline) : Outline :=
  if fs.isEmpty then rest
  else
    match fs.copyOf with
    | some name => leaf ⟨0, fs.comment, key⟩ (.reference name) rest
    | none => nested ⟨0, fs.comment, key⟩ fs.anchor (ofFields fs.list) rest

/-- SQL as the value of a key. -/
def ofSql (s : Sql) : Leaf :=
  match s.style with
  | .plain => .text s.text
  | .literal => .literal s.text

/-- The outline of a query without its name. -/
def ofQuery (q : Query) : Outline :=
  leaf ⟨0, .empty, "type"⟩ (.text q.type.token) <|
    leaf ⟨0, .empty, "sql"⟩ (ofSql q.sql) <|
      ofBlock "params" q.params (ofBlock "out" q.out done)

/-- The outline of queries, an empty line between them; `blanks` lie above the first. -/
def ofQueries (blanks : Nat) : List Query → Outline
  | [] => done
  | q :: qs => nested ⟨blanks, q.comment, q.name⟩ none (ofQuery q) (ofQueries 1 qs)

/-! ## The canonical document -/

open Canonical (spaces)

@[simp] theorem toList_spaces (n : Nat) : (spaces n).toList = List.replicate n ' ' :=
  String.toList_ofList

/-- The lines of a comment as text. -/
theorem toList_commentLines (indent : Nat) (c : Comment) :
    (Canonical.commentLines indent c).toList = unlines (c.lines.map (commentLine indent)) := by
  rw [Canonical.commentLines, String.toList_join, unlines, List.flatMap_map, List.flatMap_map]
  congr 1
  funext line
  unfold commentLine
  split <;> simp

/-- The lines of fields as text. -/
theorem toList_fieldLines (fs : List Field) :
    (String.join (fs.map Canonical.fieldLines)).toList = unlines ((ofFields fs).lines 4) := by
  induction fs with
  | nil => rfl
  | cons f fs ih =>
    rw [List.map_cons, String.join_cons, String.toList_append, ih]
    simp [Canonical.fieldLines, ofFields, lines, Heading.lines, Heading.above, Heading.written,
      Leaf.inline, Leaf.lines, toList_commentLines]

/-- The lines of a block as text, before what follows it. -/
theorem unlines_ofBlock {key : String} (hkey : Canonical.scalar key = key) (fs : Fields)
    (rest : Outline) :
    unlines ((ofBlock key fs rest).lines 2) =
      (Canonical.fieldsLines key fs).toList ++ unlines (rest.lines 2) := by
  unfold ofBlock Canonical.fieldsLines
  split
  · rfl
  · cases fs.copyOf with
    | some name =>
      simp [lines, Heading.lines, Heading.above, Heading.written, hkey, Leaf.inline, Leaf.lines,
        toList_commentLines]
    | none =>
      cases fs.anchor <;>
        simp [lines, Heading.lines, Heading.above, Heading.written, hkey, anchorText,
          toList_commentLines, ← toList_fieldLines]

/-- SQL as the value of a key, with its line breaks. -/
theorem toList_toYaml (s : Sql) (indent : Nat) (rest : List Char) :
    ' ' :: (s.toYaml indent).toList ++ '\n' :: rest =
      (ofSql s).inline ++ '\n' :: (unlines ((ofSql s).lines indent) ++ rest) := by
  unfold Sql.toYaml ofSql
  cases s.style with
  | plain => rfl
  | literal =>
    dsimp only [Leaf.inline, Leaf.lines]
    rw [String.toList_ofList, List.cons_append, Sql.literalBlock_eq, List.cons_append]

/-- The names of the types and of the keys of a query are written as they are. -/
theorem scalar_token (t : QueryType) : Canonical.scalar t.token = t.token := by
  cases t <;> decide

/-- The lines of a query as text. -/
theorem toList_queryLines (q : Query) (rest : Outline) :
    unlines ((nested ⟨0, q.comment, q.name⟩ none (ofQuery q) rest).lines 0) =
      (Canonical.queryLines q).toList ++ unlines (rest.lines 0) := by
  have htype : Canonical.scalar "type" = "type" := by decide
  have hsql : Canonical.scalar "sql" = "sql" := by decide
  have hparams : Canonical.scalar "params" = "params" := by decide
  have hout : Canonical.scalar "out" = "out" := by decide
  have hblocks : unlines ((ofBlock "params" q.params (ofBlock "out" q.out done)).lines 2) =
      (Canonical.fieldsLines "params" q.params).toList ++
        (Canonical.fieldsLines "out" q.out).toList := by
    rw [unlines_ofBlock hparams, unlines_ofBlock hout]
    simp [lines]
  have hyaml := toList_toYaml q.sql 4 ((Canonical.fieldsLines "params" q.params).toList ++
    ((Canonical.fieldsLines "out" q.out).toList ++ unlines (rest.lines 0)))
  rw [List.cons_append] at hyaml
  simp only [lines, ofQuery, Heading.lines, Heading.above, Heading.written, htype, hsql,
    scalar_token, Leaf.inline_text, Leaf.lines_text, anchorText, Text.unlines_append, hblocks,
    Canonical.queryLines, String.toList_append, toList_commentLines, toList_spaces,
    List.replicate_zero, List.nil_append, Text.unlines_cons, List.append_assoc,
    List.cons_append, ← hyaml]
  simp [Comment.empty]

/-- An empty line above the first of some queries. -/
theorem lines_ofQueries_one {qs : List Query} (hne : qs ≠ []) :
    (ofQueries 1 qs).lines 0 = [] :: (ofQueries 0 qs).lines 0 := by
  cases qs with
  | nil => exact absurd rfl hne
  | cons q qs => simp [ofQueries, lines, Heading.lines, Heading.above, Heading.written]

/-- The canonical document of queries is that of their outline. -/
theorem toList_queries (qs : List Query) :
    (Queries.toYaml ⟨qs⟩).toList = unlines ((ofQueries 0 qs).lines 0) := by
  rw [Queries.toYaml]
  dsimp only
  induction qs with
  | nil => rfl
  | cons q qs ih =>
    rw [ofQueries, toList_queryLines]
    cases qs with
    | nil => simp [ofQueries, lines]
    | cons q' qs =>
      rw [List.map_cons, String.intercalate_cons_of_ne_nil (by simp), String.toList_append,
        String.toList_append, ih, lines_ofQueries_one (by simp), List.append_assoc]
      rfl

end Outline

end QueryBook
