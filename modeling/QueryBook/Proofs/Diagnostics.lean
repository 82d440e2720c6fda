import QueryBook.Accessor.Import
import QueryBook.Proofs.Grammar
import QueryBook.Proofs.ImportTables
import QueryBook.Proofs.QuotedTexts

/-!
# Diagnostics

The text of an error is one line, and it can be told from the text where the error is, which query
it belongs to and what is said of it. Both rest on the quotes: every name, type and token from a
document stands in quotes, and a quoted text is printable and delimits itself. The rest of a text is
fixed, or a position, which is made of digits.
-/

namespace QueryBook

open Text (IsShown quoted)

/-! ## Positions -/

namespace Position

/-- Digits in front of the same mark are those of the same number. -/
theorem toDigits_append_inj {m n : Nat} {c : Char} (hc : c.isDigit = false) {r s : List Char}
    (h : Nat.toDigits 10 m ++ c :: r = Nat.toDigits 10 n ++ c :: s) : m = n ∧ r = s := by
  have hfront (n : Nat) (t : List Char) :
      (Nat.toDigits 10 n ++ c :: t).takeWhile Char.isDigit = Nat.toDigits 10 n := by
    rw [List.takeWhile_append_of_pos
      fun d hd => Nat.isDigit_of_mem_toDigits (by decide) (by decide) hd]
    simp [hc]
  have hdigits : Nat.toDigits 10 m = Nat.toDigits 10 n := by rw [← hfront m r, h, hfront]
  obtain rfl : m = n := by
    rw [← Nat.ofDigitChars_ten_toDigits (n := m), hdigits, Nat.ofDigitChars_ten_toDigits]
  exact ⟨rfl, List.tail_eq_of_cons_eq (List.append_cancel_left h)⟩

/-- A position as it is written. -/
theorem toList_render (p : Position) :
    p.render.toList = Nat.toDigits 10 p.line ++ ':' :: Nat.toDigits 10 p.column := by
  show (toString p.line ++ ":" ++ toString p.column).toList = _
  simp [Nat.toList_repr]

/-- Positions in front of the same mark are the same if they are written alike. -/
theorem render_append_inj {p q : Position} {c : Char} (hc : c.isDigit = false) {r s : List Char}
    (h : p.render.toList ++ c :: r = q.render.toList ++ c :: s) : p = q ∧ r = s := by
  rw [toList_render, toList_render, List.append_assoc, List.append_assoc, List.cons_append,
    List.cons_append] at h
  obtain ⟨hline, hcolumns⟩ := toDigits_append_inj (by decide) h
  obtain ⟨hcolumn, hrest⟩ := toDigits_append_inj hc hcolumns
  cases p
  cases q
  cases hline
  cases hcolumn
  exact ⟨rfl, hrest⟩

/-- A position is written with digits and a colon. -/
theorem isShown_render (p : Position) : IsShown p.render := by
  have hdigits (n : Nat) : ∀ d ∈ Nat.toDigits 10 n, Text.isPrintable d = true := by
    have hshown : ∀ k < 58, 48 ≤ k → Text.inRanges Text.Table.unprintable k = false := by decide
    intro d hd
    have hdigit : 48 ≤ d.toNat ∧ d.toNat ≤ 57 :=
      Char.isDigit_iff_toNat.mp (Nat.isDigit_of_mem_toDigits (by decide) (by decide) hd)
    rw [Text.isPrintable, hshown _ (by omega) hdigit.1]
    rfl
  intro d hd
  rw [toList_render, List.mem_append, List.mem_cons] at hd
  rcases hd with hd | rfl | hd
  · exact hdigits _ d hd
  · decide
  · exact hdigits _ d hd

end Position

/-! ## Problems -/

namespace Problem

/-- Whether the text of a problem is fixed but for what it quotes. The others take in words of the
scanner, of the system or of a caller. -/
def quotesNames : Problem → Bool
  | malformedDocument | unreadable .. | strayEnd _ | other .. => false
  | _ => true

/-- The text of a problem that quotes names, with that of its cause, is printable. -/
theorem isShown_fullText {p : Problem} (h : p.quotesNames = true) : IsShown p.fullText := by
  have hshape (s : NodeShape) : IsShown s.name := by cases s <;> decide
  have htoken (t : QueryType) : IsShown t.token := by cases t <;> decide
  have hquoted (name : String) : IsShown (quoted name) := Text.isShown_quoted name
  cases p with
  | malformedDocument | unreadable | strayEnd | other => cases h
  | truncatedDocument | unknownAnchor => decide
  | queryNameMissing | sqlMissing | fieldNameMissing => decide
  | queriesNotMapping found =>
    show IsShown ("queries must be a mapping: have " ++ found.name)
    exact .append (by decide) (hshape found)
  | queryNotMapping found =>
    show IsShown ("query must be a mapping: have " ++ found.name)
    exact .append (by decide) (hshape found)
  | sqlNotScalar found =>
    show IsShown ("sql must be a scalar: have " ++ found.name)
    exact .append (by decide) (hshape found)
  | fieldsNotMapping found =>
    show IsShown ("fields must be a mapping: have " ++ found.name)
    exact .append (by decide) (hshape found)
  | queryRedefined name =>
    show IsShown ("query " ++ quoted name ++ " redefined")
    exact .append (.append (by decide) (hquoted name)) (by decide)
  | unknownProperty key =>
    show IsShown ("unknown property " ++ quoted key)
    exact .append (by decide) (hquoted key)
  | unknownType token =>
    show IsShown ("parse type" ++ ": " ++ ("unsupported query type: " ++ quoted token))
    exact .append (by decide) (.append (by decide) (hquoted token))
  | fieldTypeNotScalar field found =>
    show IsShown ("field " ++ quoted field ++ " type must be a scalar: have " ++ found.name)
    exact .append (.append (.append (by decide) (hquoted field)) (by decide)) (hshape found)
  | fieldTypeMissing field =>
    show IsShown ("field " ++ quoted field ++ " type not defined")
    exact .append (.append (by decide) (hquoted field)) (by decide)
  | fieldRedefined field =>
    show IsShown ("field " ++ quoted field ++ " redefined")
    exact .append (.append (by decide) (hquoted field)) (by decide)
  | outRequired type =>
    show IsShown (type.token ++ " query must describe its out fields")
    exact .append (htoken type) (by decide)
  | outUnused type =>
    show IsShown (type.token ++ " query returns no rows: out fields are not used")
    exact .append (htoken type) (by decide)
  | outPointer field type =>
    show IsShown ("unsupported out field " ++ quoted field ++ " pointer type " ++ quoted type)
    exact .append (.append (.append (by decide) (hquoted field)) (by decide)) (hquoted type)
  | unknownQualifier qualifier field =>
    show IsShown ("unknown package prefix " ++ quoted qualifier ++ " in field " ++ quoted field)
    exact .append (.append (.append (by decide) (hquoted qualifier)) (by decide)) (hquoted field)

end Problem

/-! ## Errors of readers -/

namespace Grammar

variable {n name : Node} {p : Node × Node} {e : SchemaError}

/-- A field that cannot be read is reported by its name. -/
theorem quotesNames_of_readPair {fs : Fields} (h : fs.readPair p = .error e) :
    e.problem.quotesNames = true := by
  rcases Reading.bind_eq_error.1 h with h | ⟨f, -, h⟩
  · unfold Fields.readField at h
    dsimp only at h
    split_ifs at h <;> cases h <;> rfl
  · unfold Fields.push at h
    split_ifs at h
    cases h
    rfl

theorem quotesNames_of_fields (h : Fields.ofNode n = .error e) : e.problem.quotesNames = true := by
  unfold Fields.ofNode at h
  dsimp only at h
  cases hpairs : n.resolve.pairs? with
  | none =>
    rw [hpairs] at h
    cases h
    rfl
  | some pairs =>
    rw [hpairs] at h
    obtain ⟨-, p, -, fs, -, -, hp⟩ := Reading.foldlM_eq_error.1 h
    exact quotesNames_of_readPair hp

theorem quotesNames_of_sql (h : Sql.ofNode n = .error e) : e.problem.quotesNames = true := by
  unfold Sql.ofNode at h
  dsimp only at h
  split_ifs at h <;> cases h <;> rfl

/-- A key of a query that cannot be read is reported by its text or its value. -/
theorem quotesNames_of_read {d : Query.Draft} (h : d.read p.1 p.2 = .error e) :
    e.problem.quotesNames = true := by
  unfold Query.Draft.read at h
  split_ifs at h
  · split at h
    · cases h
    · cases h
      rfl
  · exact quotesNames_of_sql (Reading.map_eq_error.1 h)
  · exact quotesNames_of_fields (Reading.map_eq_error.1 h)
  · exact quotesNames_of_fields (Reading.map_eq_error.1 h)
  · cases h
    rfl

theorem quotesNames_of_shapeError? {q : Query} (h : q.shapeError? = some e) :
    e.problem.quotesNames = true := by
  unfold Query.shapeError? at h
  split_ifs at h
  · cases h
    rfl
  · cases h
    rfl
  · obtain ⟨f, -, rfl⟩ := Option.map_eq_some_iff.1 h
    rfl

theorem quotesNames_of_ofDraft {d : Query.Draft} (h : Query.ofDraft name d = .error e) :
    e.problem.quotesNames = true := by
  unfold Query.ofDraft at h
  split at h
  · cases h
    rfl
  · dsimp only at h
    split at h
    · next hshape =>
      cases h
      exact quotesNames_of_shapeError? hshape
    · cases h

/-- A query that cannot be read is reported by what its keys and its shape are wrong in. -/
theorem quotesNames_of_query (h : Query.ofNode p.1 p.2 = .error e) :
    e.problem.quotesNames = true := by
  obtain ⟨e', hread, rfl⟩ := Reading.mapError_eq_error.1 h
  show e'.problem.quotesNames = true
  unfold Query.readDefinition at hread
  dsimp only at hread
  cases hpairs : p.2.resolve.pairs? with
  | none =>
    rw [hpairs] at hread
    cases hread
    rfl
  | some pairs =>
    rw [hpairs] at hread
    rcases Reading.bind_eq_error.1 hread with h | ⟨d, -, h⟩
    · obtain ⟨-, p, -, d, -, -, hp⟩ := Reading.foldlM_eq_error.1 h
      exact quotesNames_of_read hp
    · exact quotesNames_of_ofDraft h

theorem quotesNames_of_entry {qs : Queries} (h : qs.readPair p = .error e) :
    e.problem.quotesNames = true := by
  unfold Queries.readPair at h
  dsimp only at h
  split_ifs at h
  · cases h
    rfl
  · cases h
    rfl
  · exact quotesNames_of_query (Reading.map_eq_error.1 h)

/-- A tree that cannot be read as queries is reported with its names in quotes. -/
theorem quotesNames_of_queries (h : Queries.ofNode n = .error e) :
    e.problem.quotesNames = true := by
  unfold Queries.ofNode at h
  dsimp only at h
  cases hpairs : n.resolve.pairs? with
  | none =>
    rw [hpairs] at h
    cases h
    rfl
  | some pairs =>
    rw [hpairs] at h
    obtain ⟨-, p, -, qs, -, -, hp⟩ := Reading.foldlM_eq_error.1 h
    exact quotesNames_of_entry hp

end Grammar

/-- Qualifiers that cannot be resolved are reported with their names in quotes. -/
theorem ImportTable.quotesNames_of_resolve {t : ImportTable} {queries : List Query}
    {e : SchemaError} (h : t.resolve queries = .error e) : e.problem.quotesNames = true := by
  obtain ⟨-, u, -, s, -, -, hu⟩ := Reading.foldlM_eq_error.1 h
  unfold resolveUse at hu
  split at hu
  · cases hu
  · cases hu
    rfl

/-! ## The texts of errors -/

namespace SchemaError

variable {e e' : SchemaError}

/-- Whether an error comes from reading a tree as queries, or from resolving the qualifiers of
queries. -/
def IsRaised (e : SchemaError) : Prop :=
  (∃ root, Queries.ofNode root = .error e) ∨
    ∃ (t : ImportTable) (queries : List Query), t.resolve queries = .error e

theorem IsRaised.quotesNames (h : e.IsRaised) : e.problem.quotesNames = true := by
  obtain ⟨root, h⟩ | ⟨t, queries, h⟩ := h
  · exact Grammar.quotesNames_of_queries h
  · exact ImportTable.quotesNames_of_resolve h

/-- An error as it is written. -/
theorem toList_render (e : SchemaError) :
    e.render.toList = '[' :: (e.position.render.toList ++ ']' :: ' ' ::
      ((quoted e.query).toList ++ ' ' :: e.problem.fullText.toList)) := by
  show ("[" ++ e.position.render ++ "] " ++ quoted e.query ++ " " ++ e.problem.fullText).toList = _
  simp

/-- An error that quotes names is written with printable characters. -/
theorem isShown_render (h : e.problem.quotesNames = true) : IsShown e.render := by
  show IsShown ("[" ++ e.position.render ++ "] " ++ quoted e.query ++ " " ++ e.problem.fullText)
  have hplace : IsShown ("[" ++ e.position.render ++ "] ") :=
    .append (.append (by decide) e.position.isShown_render) (by decide)
  exact .append (.append (.append hplace (Text.isShown_quoted _)) (by decide))
    (Problem.isShown_fullText h)

/-- Errors written alike are at one position, belong to one query and say the same. -/
theorem eq_of_render_eq (h : e.render = e'.render) :
    e.position = e'.position ∧ e.query = e'.query ∧ e.problem.fullText = e'.problem.fullText := by
  have hchars := congrArg String.toList h
  rw [toList_render, toList_render, List.cons.injEq] at hchars
  obtain ⟨hposition, hbehind⟩ := Position.render_append_inj (by decide) hchars.2
  obtain ⟨hquery, htext⟩ := Text.quoted_append_inj (List.tail_eq_of_cons_eq hbehind)
  exact ⟨hposition, hquery, String.ext (List.tail_eq_of_cons_eq htext)⟩

/-- **One line, and only one reading.** The text of an error that is raised, whatever characters the
names, types and tokens hold, has printable characters only, none of which ends a line; and an error
with the same text is at the same position, belongs to the same query, and has the same message with
its cause. -/
theorem render_unambiguous (h : e.IsRaised) :
    (∀ c ∈ e.render.toList, Text.isPrintable c = true ∧ Text.isLineBreak c = false) ∧
      ∀ e' : SchemaError, e.render = e'.render → e.position = e'.position ∧ e.query = e'.query ∧
        e.problem.fullText = e'.problem.fullText := by
  refine ⟨fun c hc => ?_, fun e' => eq_of_render_eq⟩
  have hshown := isShown_render h.quotesNames c hc
  exact ⟨hshown, Text.isLineBreak_of_isPrintable hshown⟩

/-- A query whose name looks like the end of a quoted text and goes on on the next line, with a type
of line separators. -/
def brokenNames : Node :=
  .mapping { position := ⟨1, 12⟩ }
    [(.scalar { position := ⟨1, 1⟩ } "a\" b\nc" .quoted,
      .mapping { position := ⟨2, 7⟩ }
        [(.scalar { position := ⟨2, 3⟩ } "type" .plain,
          .scalar { position := ⟨2, 9⟩ } "x\r\u2028" .quoted)])]

/-- Its error is written on one line. -/
theorem render_unambiguous_of_broken_names :
    ∃ e : SchemaError, Queries.ofNode brokenNames = .error e ∧ e.IsRaised ∧
      e.render = "[2:9] \"a\\\" b\\nc\" parse type: " ++
        "unsupported query type: \"x\\r\\u\x7b2028\x7d\"" ∧
      (∀ c ∈ e.render.toList, Text.isPrintable c = true ∧ Text.isLineBreak c = false) ∧
      ∀ e' : SchemaError, e.render = e'.render → e.position = e'.position ∧ e.query = e'.query ∧
        e.problem.fullText = e'.problem.fullText := by
  have herror : Queries.ofNode brokenNames =
      .error { problem := .unknownType "x\r\u2028", position := ⟨2, 9⟩, query := "a\" b\nc" } := by
    decide +kernel
  have hraised : IsRaised _ := .inl ⟨brokenNames, herror⟩
  exact ⟨_, herror, hraised, by decide +kernel, render_unambiguous hraised⟩

end SchemaError

end QueryBook
