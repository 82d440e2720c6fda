import QueryBook.Accessor.Code
import QueryBook.Proofs.Grammar

/-!
# The SQL that generated code passes on

Generated code hands its SQL to the database as an expression of strings: raw strings between
backquotes and strings in double quotes, joined by `+`. A reader of such expressions says what they
denote. The main statement, `sql_argument_iff`, says that the argument denotes the SQL of the query
under its label exactly if neither of them holds a carriage return, which raw strings drop.
-/

namespace QueryBook

/-! ## Expressions of strings -/

/-- Where a reader of an expression is. -/
inductive StringPlace where
  /-- Before a string. -/
  | start
  /-- In a raw string. -/
  | raw
  /-- In a string in double quotes. -/
  | quoted
  /-- Behind a string. -/
  | behind
  deriving DecidableEq

namespace StringExpression

/-- The character that an escape of one letter stands for. -/
def shortEscape? : Char → Option Char
  | 'a' => some '\x07'
  | 'b' => some '\x08'
  | 'f' => some '\x0c'
  | 'n' => some '\n'
  | 'r' => some '\r'
  | 't' => some '\t'
  | 'v' => some '\x0b'
  | '\\' => some '\\'
  | '"' => some '"'
  | _ => none

/-- The text that an expression denotes, and what follows the expression. Raw strings drop carriage
returns and know no escapes; strings in double quotes end on their line. -/
def read : StringPlace → List Char → Option (List Char × List Char)
  | .start, c :: rest =>
    if c = Code.backquote then read .raw rest
    else if c = '"' then read .quoted rest
    else none
  | .raw, c :: rest =>
    if c = Code.backquote then read .behind rest
    else (read .raw rest).map fun (text, after) => (if c = '\r' then text else c :: text, after)
  | .quoted, '\\' :: c :: rest =>
    (shortEscape? c).bind fun e => (read .quoted rest).map fun (text, after) => (e :: text, after)
  | .quoted, c :: rest =>
    if c = '"' then read .behind rest
    else if c = '\n' || c = '\\' then none
    else (read .quoted rest).map fun (text, after) => (c :: text, after)
  | .behind, c :: rest => if c = '+' then read .start rest else some ([], c :: rest)
  | .behind, [] => some ([], [])
  | _, [] => none

/-- A text without carriage returns. -/
def withoutReturns (text : List Char) : List Char := text.filter (· ≠ '\r')

theorem withoutReturns_eq_self {text : List Char} : withoutReturns text = text ↔ '\r' ∉ text := by
  rw [withoutReturns, List.filter_eq_self]
  constructor
  · intro h hmem
    simpa using h '\r' hmem
  · intro h c hc
    rw [decide_eq_true_eq]
    rintro rfl
    exact h hc

/-- A backquote ends a raw string. -/
theorem read_raw_backquote (rest : List Char) :
    read .raw (Code.backquote :: rest) = read .behind rest := by
  rw [read, if_pos rfl]

/-- What interrupts a raw string for a backquote reads as one. -/
theorem read_raw_spliced (rest : List Char) :
    read .raw (Code.rawChar Code.backquote ++ rest) =
      (read .raw rest).map fun (text, after) => (Code.backquote :: text, after) := by
  rw [Code.rawChar, if_pos rfl]
  rfl

/-- Within a raw string the text is read behind which it was written. -/
theorem read_raw_flatMap (text rest : List Char) :
    read .raw (text.flatMap Code.rawChar ++ rest) =
      (read .raw rest).map fun (value, after) => (withoutReturns text ++ value, after) := by
  induction text with
  | nil => simp [withoutReturns]
  | cons c text ih =>
    rw [List.flatMap_cons, List.append_assoc]
    by_cases hc : c = Code.backquote
    · rw [hc, read_raw_spliced, ih, Option.map_map]
      rfl
    · rw [Code.rawChar, if_neg hc, List.singleton_append, read, if_neg hc, ih, Option.map_map]
      by_cases hr : c = '\r'
      · simp [hr, withoutReturns, Function.comp_def]
      · simp [hr, withoutReturns, Function.comp_def]

/-- A raw string with its splices denotes its text without carriage returns. -/
theorem read_rawString (text : String) {after : List Char} (h : after.head? ≠ some '+') :
    read .start ((Code.rawString text).toList ++ after) =
      some (withoutReturns text.toList, after) := by
  have hafter : read .behind after = some ([], after) := by
    cases after with
    | nil => rfl
    | cons c rest => rw [read, if_neg fun hc => h (by rw [hc]; rfl)]
  rw [Code.rawString, String.toList_ofList, List.cons_append, List.cons_append, List.append_assoc,
    List.singleton_append, read, if_pos rfl, read_raw_flatMap, read_raw_backquote, hafter]
  simp

end StringExpression

/-! ## The call of the database -/

namespace Code

/-- The database method that a query is run by. -/
def callMethod : QueryType → String
  | .many => "QueryContext"
  | .one => "QueryRowContext"
  | .exec | .affected | .exist | .rowId => "ExecContext"

/-- What the result of the call is put into. -/
def callResult : QueryType → String
  | .many => "rows, err := "
  | .one => "row := "
  | .exec => "_, err := "
  | .affected | .exist | .rowId => "result, err := "

/-- The section of a query up to the SQL that its method passes to the database, which is the second
argument of the call. -/
def callHead (v : QueryView) : String :=
  lines ["", "// *** " ++ v.label ++ " ***"] ++ declared v.out ++ declared v.bundle ++ "\n" ++
    commentLines "// " v.comment ++
    lines ["func (q Queries) " ++ v.method ++ "(" ++ signature v ++ ") " ++ returns v ++ " \x7b"] ++
    "\t" ++ callResult v.kind ++ "q.db." ++ callMethod v.kind ++ "(ctx, "

theorem lines_cons (line : String) (rest : List String) :
    lines (line :: rest) = line ++ "\n" ++ lines rest := by
  simp [lines]

/-- The body of a method begins with the call. -/
theorem exists_body (v : QueryView) :
    ∃ rest, body v = ("\t" ++ callResult v.kind ++ execute v (callMethod v.kind)) :: rest := by
  unfold body callResult callMethod
  cases v.kind <;> exact ⟨_, by simp only [List.cons_append, List.nil_append]; rfl⟩

/-- Behind the head of the call stands the SQL as a raw string, and behind that the other arguments
or the end of the call. -/
theorem exists_querySection (v : QueryView) :
    ∃ tail, querySection v = callHead v ++ (rawString v.sql ++ tail) ∧
      (tail.toList.head? = some ',' ∨ tail.toList.head? = some ')') := by
  obtain ⟨rest, hbody⟩ := exists_body v
  refine ⟨String.join (v.args.map (", " ++ ·)) ++ (")" ++ ("\n" ++ (lines rest ++ lines ["\x7d"]))),
    ?_, ?_⟩
  · have hcall := lines_cons ("\t" ++ callResult v.kind ++ execute v (callMethod v.kind)) rest
    rw [querySection, callHead, hbody, hcall, execute]
    simp only [String.append_assoc]
  · cases v.args with
    | nil => exact .inr (by simp)
    | cons arg args => exact .inl (by simp)

/-- The file of accessors up to the first section. -/
def fileHead (m : Metadata) (source : String) (imports : ImportSet) (views : List QueryView) :
    String :=
  heading m ++ lines ["// source: " ++ source, "", "package " ++ m.package] ++
    (if views.isEmpty then "" else importBlock imports)

/-- The section of a view stands between those of the views before and behind it. -/
theorem ofQueries_eq (m : Metadata) {naming : Naming} (source : String) (imports : ImportSet)
    {queries : List Query} {earlier later : List QueryView} {v : QueryView}
    (h : QueryView.ofQueries naming [] queries = earlier ++ v :: later) :
    ofQueries m naming source imports queries =
      fileHead m source imports (earlier ++ v :: later) ++
        String.join (earlier.map querySection) ++ querySection v ++
          String.join (later.map querySection) := by
  have hsections : String.join ((earlier ++ v :: later).map querySection) =
      String.join (earlier.map querySection) ++ querySection v ++
        String.join (later.map querySection) := by
    rw [List.map_append, List.map_cons, String.join_append, String.join_cons, String.append_assoc]
  rw [ofQueries, queriesFile, h, hsections, ← String.append_assoc, ← String.append_assoc, fileHead]

/-- The section of every view is part of the file. -/
theorem exists_ofQueries (m : Metadata) (naming : Naming) (source : String) (imports : ImportSet)
    {queries : List Query} {v : QueryView} (hv : v ∈ QueryView.ofQueries naming [] queries) :
    ∃ before after, ofQueries m naming source imports queries =
      before ++ querySection v ++ after := by
  obtain ⟨earlier, later, hviews⟩ := List.append_of_mem hv
  exact ⟨_, _, ofQueries_eq m source imports hviews⟩

end Code

/-- Every query has a view among those of a list. -/
theorem QueryView.exists_ofQueries (naming : Naming) {queries : List Query} {q : Query}
    (hq : q ∈ queries) (declared : List String) :
    ∃ before, ofQuery naming before q ∈ ofQueries naming declared queries := by
  induction queries generalizing declared with
  | nil => cases hq
  | cons first rest ih =>
    rcases List.mem_cons.mp hq with rfl | hq
    · exact ⟨declared, List.mem_cons_self⟩
    · obtain ⟨before, hmem⟩ := ih hq (declaredAfter declared (ofQuery naming declared first))
      exact ⟨before, List.mem_cons_of_mem _ hmem⟩

/-! ## What is passed on -/

/-- The SQL of a query under a comment with its label, which is what the database should be given.
-/
def QueryView.labelled (q : Query) : String :=
  "-- " ++ labelOf q ++ "\n" ++ Text.trimEnd q.sql.text

/-- **The SQL as an argument.** The method of a query passes to the database an expression of
strings that denotes the SQL under its label less the carriage returns. So it denotes exactly that
text if and only if neither the label nor the SQL, blanks at its end left out, holds one. -/
theorem sql_argument_iff (m : Metadata) (naming : Naming) (source : String) (imports : ImportSet)
    {queries : List Query} {q : Query} (hq : q ∈ queries) :
    ∃ declared, ∃ v ∈ QueryView.ofQueries naming [] queries,
      v = QueryView.ofQuery naming declared q ∧
      (∃ before after,
        Code.ofQueries m naming source imports queries = before ++ Code.querySection v ++ after) ∧
      ∃ argument value after, Code.querySection v = Code.callHead v ++ argument ∧
        StringExpression.read .start argument.toList = some (value, after) ∧
        (after.head? = some ',' ∨ after.head? = some ')') ∧
        value = StringExpression.withoutReturns (QueryView.labelled q).toList ∧
        (String.ofList value = QueryView.labelled q ↔
          '\r' ∉ (QueryView.labelOf q).toList ∧ '\r' ∉ (Text.trimEnd q.sql.text).toList) := by
  obtain ⟨declared, hv⟩ := QueryView.exists_ofQueries naming hq []
  obtain ⟨tail, hsection, htail⟩ := Code.exists_querySection (QueryView.ofQuery naming declared q)
  have hsql : (QueryView.ofQuery naming declared q).sql = QueryView.labelled q := by
    rfl
  have hplus : tail.toList.head? ≠ some '+' := by
    rcases htail with h | h <;> rw [h] <;> decide
  have hreturn : '\r' ∉ (QueryView.labelled q).toList ↔
      '\r' ∉ (QueryView.labelOf q).toList ∧ '\r' ∉ (Text.trimEnd q.sql.text).toList := by
    simp [QueryView.labelled]
  refine ⟨declared, _, hv, rfl, Code.exists_ofQueries m naming source imports hv, _, _, _, hsection,
    ?_, htail, rfl, ?_⟩
  · rw [String.toList_append, hsql]
    exact StringExpression.read_rawString _ hplus
  · rw [← hreturn, ← StringExpression.withoutReturns_eq_self, ← String.toList_inj,
      String.toList_ofList]

/-- A query whose SQL has backquotes in a row and at its end. -/
def backquoted : Query where
  name := "q"
  comment := .empty
  type := .exec
  sql := { text := "delete from \x60\x60t\x60\n" }
  params := {}
  out := {}
  position := .unknown

/-- SQL with backquotes is passed on as it is. -/
theorem sql_argument_of_backquotes :
    backquoted ∈ [backquoted] ∧
      ∃ v ∈ QueryView.ofQueries .standard [] [backquoted], ∃ argument after,
        Code.querySection v = Code.callHead v ++ argument ∧
          StringExpression.read .start argument.toList =
            some ("-- q\ndelete from \x60\x60t\x60".toList, after) := by
  have hmem : backquoted ∈ [backquoted] := List.mem_singleton_self _
  obtain ⟨declared, v, hv, -, -, argument, value, after, hsection, hread, -, -, hdenotes⟩ :=
    sql_argument_iff { package := "db" } .standard "q.yaml" .empty hmem
  have hvalue := hdenotes.mpr (by decide +kernel)
  have htext : QueryView.labelled backquoted = "-- q\ndelete from \x60\x60t\x60" := by
    decide +kernel
  rw [htext, ← String.toList_inj, String.toList_ofList] at hvalue
  rw [hvalue] at hread
  exact ⟨hmem, v, hv, argument, after, hsection, hread⟩

/-- A document whose SQL has a carriage return in it. -/
def withReturn : String := "a:\n  type: exec\n  sql: \"x\\ry\"\n"

/-- A carriage return in the SQL is not passed on. -/
theorem sql_argument_without_return :
    ¬ ∀ (source : String) (queries : Queries), Queries.parse source = .ok queries →
      ∀ q ∈ queries.list, ∀ declared argument,
        Code.querySection (QueryView.ofQuery .standard declared q) =
            Code.callHead (QueryView.ofQuery .standard declared q) ++ argument →
          ∃ after, StringExpression.read .start argument.toList =
            some ((QueryView.labelled q).toList, after) := by
  intro denotes
  have h : Queries.parse withReturn = .ok ((Queries.parse withReturn).toOption.getD .empty) :=
    Grammar.parse_eq_ok (by decide +kernel)
  have hreturn : ∃ q ∈ ((Queries.parse withReturn).toOption.getD .empty).list,
      '\r' ∈ (QueryView.labelled q).toList := by
    decide +kernel
  obtain ⟨q, hq, hreturn⟩ := hreturn
  obtain ⟨tail, hsection, htail⟩ := Code.exists_querySection (QueryView.ofQuery .standard [] q)
  obtain ⟨after, hread⟩ := denotes _ _ h q hq [] _ hsection
  have hplus : tail.toList.head? ≠ some '+' := by
    rcases htail with h | h <;> rw [h] <;> decide
  rw [String.toList_append, StringExpression.read_rawString _ hplus, Option.some.injEq,
    Prod.mk.injEq] at hread
  exact StringExpression.withoutReturns_eq_self.mp hread.1 hreturn

end QueryBook
