import QueryBook.Proofs.CodeNames
import QueryBook.Proofs.FieldViews
import QueryBook.Proofs.Grammar

/-!
# Names inside methods

The body of a method refers to names of its own, besides the parameters it passes on: its receiver,
the context, the callback, its variables, the constants it compares with and returns, and the struct
of the result rows. Which these are depends on the type of the query only, but for the struct. A
parameter of the same name would be meant in their place.
-/

namespace QueryBook

/-! ## What names are made of -/

namespace Code

/-- Exported names are words. -/
theorem isWord_exported (name : String) : IsWord (Naming.standard.exported name).toList := by
  show IsWord (Naming.avoiding Naming.reservedExports (Identifier.ofName name true)).toList
  unfold Naming.avoiding
  split
  · rw [String.toList_append]
    exact List.forall_mem_append.mpr ⟨isWord_ofName name true, isWord_underscore⟩
  · exact isWord_ofName name true

/-- So are numbered ones. -/
theorem isWord_numbered {name : String} (h : IsWord name.toList) (n : Nat) :
    IsWord (FieldView.numbered name n).toList := by
  by_cases hn : n = 1
  · rw [hn, FieldView.numbered_one]
    exact h
  · have hdigits : (toString n).toList = Nat.toDigits 10 n := Nat.toList_repr
    rw [FieldView.numbered_eq name hn, String.toList_append, hdigits]
    refine List.forall_mem_append.mpr ⟨h, fun c hc => ?_⟩
    have hdigit : c.isDigit = true := Nat.isDigit_of_mem_toDigits (by decide) (by decide) hc
    have halphanum : c.isAlphanum = true := by
      show (c.isAlpha || c.isDigit) = true
      rw [hdigit, Bool.or_true]
    simp [isWordChar, halphanum]

/-- The names of struct fields are words. -/
theorem isWord_name {fields : List Field} {names params : List String} {f : FieldView}
    (h : f ∈ FieldView.ofFields .standard names params fields) : IsWord f.name.toList := by
  induction fields generalizing names params with
  | nil => cases h
  | cons field rest ih =>
    rw [FieldView.ofFields, List.mem_cons] at h
    rcases h with rfl | h
    · obtain ⟨n, -, hname, -⟩ := FieldView.exists_freeName names (Naming.standard.exported field.name)
      show IsWord (FieldView.freeName names (Naming.standard.exported field.name)).toList
      rw [hname]
      exact isWord_numbered (isWord_exported _) n
    · exact ih h

/-! ## What bodies mention -/

/-- The names that the body of a method refers to, the parameters that it passes on left out. -/
def ownNames (v : QueryView) : List String := names (lines (body { v with args := [] }))

/-- The names that a body refers to by the type of the query: the receiver, the context and the
callback, the variables, and the constants. -/
def bodyNames : QueryType → List String
  | .many => ["q", "ctx", "f", "rows", "err", "out", "nil"]
  | .one => ["q", "ctx", "row", "err", "out"]
  | .exec => ["q", "ctx", "err"]
  | .affected | .rowId => ["q", "ctx", "result", "err", "nil"]
  | .exist => ["q", "ctx", "result", "rows", "err", "nil", "false"]

/-- The struct that a body refers to, where it reads rows. -/
def bodyTypes (v : QueryView) : List String :=
  match v.kind with
  | .many | .one => [outType v]
  | .exec | .affected | .exist | .rowId => []

/-- Lines of code, whole outside words and literals, refer to these names and types. -/
structure Mentions (ls mentioned types : List String) : Prop where
  closes : Place.steps .code (lines ls).toList = .code
  mem_iff : ∀ w, isName w = true →
    (w ∈ Place.words .code (lines ls).toList ↔ w ∈ mentioned ∨ w ∈ types)

variable {ls ls' mentioned mentioned' types types' : List String}

/-- Lines that lead past words mention those that are names. -/
theorem mentions_of_leads {ws : List String} (h : Leads .code (lines ls).toList .code ws) :
    Mentions ls (ws.filter isName) [] := by
  refine ⟨h.steps_eq, fun w hname => ?_⟩
  rw [h.words_eq, List.mem_filter, and_iff_left hname, or_iff_left List.not_mem_nil]

theorem Mentions.append (h : Mentions ls mentioned types) (h' : Mentions ls' mentioned' types') :
    Mentions (ls ++ ls') (mentioned ++ mentioned') (types ++ types') := by
  have hboth := leads_lines_append ⟨h.closes, rfl⟩ ⟨h'.closes, rfl⟩
  refine ⟨hboth.steps_eq, fun w hname => ?_⟩
  rw [hboth.words_eq, List.mem_append, List.mem_append, List.mem_append, h.mem_iff w hname,
    h'.mem_iff w hname, or_or_or_comm]

/-- Lines behind others that mention nothing new add nothing. -/
theorem Mentions.append_of_subset (h : Mentions ls mentioned types)
    (h' : ∃ ws, Leads .code (lines ls').toList .code ws ∧ ∀ w ∈ ws, w ∈ mentioned) :
    Mentions (ls ++ ls') mentioned types := by
  obtain ⟨ws, hleads, hws⟩ := h'
  have hboth := leads_lines_append ⟨h.closes, rfl⟩ hleads
  refine ⟨hboth.steps_eq, fun w hname => ?_⟩
  rw [hboth.words_eq, List.mem_append, h.mem_iff w hname]
  exact or_iff_left_of_imp fun hmem => .inl (hws w hmem)

/-- Names may be listed in another order, and more than once. -/
theorem Mentions.congr (h : Mentions ls mentioned types) (most : ∀ w ∈ mentioned, w ∈ mentioned')
    (least : ∀ w ∈ mentioned', w ∈ mentioned) : Mentions ls mentioned' types :=
  ⟨h.closes, fun w hname => (h.mem_iff w hname).trans (or_congr_left ⟨most w, least w⟩)⟩

/-- Lines with a call of the database mention what stands before the SQL. -/
theorem mentions_call {v : QueryView} {start method : String} {ws : List String}
    (hargs : v.args = []) (h : Leads .code (start ++ "q.db." ++ method ++ "(ctx, ").toList .code ws) :
    Mentions [start ++ execute v method] (ws.filter isName) [] := by
  have hend : Leads .code ")\n".toList .code [] := by decide
  have hline : (lines [start ++ execute v method]).toList =
      (start ++ "q.db." ++ method ++ "(ctx, ").toList ++ ((rawString v.sql).toList ++ ")\n".toList) := by
    rw [← String.toList_append, ← String.toList_append, String.toList_inj, lines, execute, hargs]
    simp [String.append_assoc]
  have hleads := h.append ((leads_rawString v.sql).append hend)
  rw [← hline, List.append_nil, List.append_nil] at hleads
  exact mentions_of_leads hleads

/-- The line of the variable of a row mentions it, and the struct. -/
theorem mentions_variable (v : QueryView) {start : String} (hout : IsWord (outType v).toList)
    (h : Leads .code start.toList .code ["var", "out"]) :
    Mentions [start ++ outType v] ["out"] [outType v] := by
  have hline : (lines [start ++ outType v]).toList =
      start.toList ++ ((outType v).toList ++ ['\n']) := by
    simp [lines]
  have hvar : isName "var" = false := by decide
  by_cases hempty : outType v = ""
  · -- Where there is no struct, no name stands in its place.
    have hfeed : Leads .code ((outType v).toList ++ ['\n']) .code [] := by
      rw [hempty]
      decide
    have hleads := h.append hfeed
    rw [← hline] at hleads
    refine ⟨hleads.steps_eq, fun w hname => ?_⟩
    have hne : w ≠ "var" ∧ w ≠ "" :=
      ⟨fun heq => by simp [heq, hvar] at hname, fun heq => by simp [heq, isName] at hname⟩
    rw [hleads.words_eq, hempty]
    simp [hne]
  · have hleads := h.append (leads_word_feed hout (mt String.toList_eq_nil_iff.mp hempty))
    rw [← hline, String.ofList_toList] at hleads
    refine ⟨hleads.steps_eq, fun w hname => ?_⟩
    have hne : w ≠ "var" := fun heq => by simp [heq, hvar] at hname
    rw [hleads.words_eq]
    simp [hne]

/-- The lines of the addresses that a row is scanned into mention nothing but the variable. -/
theorem leads_scanTargets (v : QueryView) {indent : String}
    (hfields : ∀ s ∈ v.out, ∀ f ∈ s.fields, IsWord f.name.toList)
    (h : Leads .code (indent ++ "&out.").toList .selector ["out"]) :
    ∃ ws, Leads .code (lines (scanTargets indent v)).toList .code ws ∧ ∀ w ∈ ws, w = "out" := by
  have hnames : ∀ f ∈ (v.out.map (·.fields)).getD [], IsWord f.name.toList := by
    cases hv : v.out with
    | none => nofun
    | some s => exact hfields s hv
  rw [scanTargets]
  generalize (v.out.map (·.fields)).getD [] = fields at hnames
  induction fields with
  | nil => exact ⟨[], ⟨rfl, rfl⟩, nofun⟩
  | cons f fields ih =>
    rw [List.forall_mem_cons] at hnames
    obtain ⟨ws, hrest, hws⟩ := ih hnames.2
    have hend : Leads .selector ",\n".toList .code [] := by decide
    have hline : (lines [indent ++ "&out." ++ f.name ++ ","]).toList =
        (indent ++ "&out.").toList ++ (f.name.toList ++ ",\n".toList) := by
      simp [lines]
    have hleads := h.append ((leads_selector hnames.1).append hend)
    rw [← hline] at hleads
    have hboth := leads_lines_append hleads hrest
    exact ⟨_, hboth, by simpa using hws⟩

/-! ## The bodies -/

variable {v : QueryView}

/-- A row is put into a variable: the lines up to the addresses mention the variable, and what the line
of the scan does. -/
theorem mentions_row {start line indent : String} {ws : List String}
    (hout : IsWord (outType v).toList)
    (hfields : ∀ s ∈ v.out, ∀ f ∈ s.fields, IsWord f.name.toList)
    (hstart : Leads .code start.toList .code ["var", "out"])
    (hline : Leads .code (lines [line]).toList .code ws)
    (hindent : Leads .code (indent ++ "&out.").toList .selector ["out"]) :
    Mentions ([start ++ outType v, line] ++ scanTargets indent v) ("out" :: ws.filter isName)
      [outType v] := by
  have hopen := (mentions_variable v hout hstart).append (mentions_of_leads hline)
  obtain ⟨targets, hleads, htargets⟩ := leads_scanTargets v hfields hindent
  exact hopen.append_of_subset ⟨targets, hleads, fun w hw => htargets w hw ▸ List.mem_cons_self⟩

/-- The body for many rows calls the callback with each of them, and looks for errors. -/
theorem mentions_body_many (hkind : v.kind = .many) (hargs : v.args = [])
    (hout : IsWord (outType v).toList)
    (hfields : ∀ s ∈ v.out, ∀ f ∈ s.fields, IsWord f.name.toList) :
    Mentions (body v) (bodyNames v.kind) (bodyTypes v) := by
  have fixed {ls ws : List String} (h : Leads .code (lines ls).toList .code ws) :=
    mentions_of_leads h
  have hcall := mentions_call hargs (by decide +kernel : Leads .code
    ("\trows, err := " ++ "q.db." ++ "QueryContext" ++ "(ctx, ").toList .code
      ["rows", "err", "q", "ctx"])
  have hopen := fixed (by decide +kernel : Leads .code (lines (returnIfError "err")).toList .code
    ["if", "err", "nil", "return", "err"])
  have hloop := fixed (by decide +kernel : Leads .code
    (lines ["\tdefer rows.Close()", "", "\tfor rows.Next() \x7b"]).toList .code
      ["defer", "rows", "for", "rows"])
  have hrow := mentions_row hout hfields
    (by decide +kernel : Leads .code "\t\tvar out ".toList .code ["var", "out"])
    (by decide +kernel : Leads .code (lines ["\t\tif err := rows.Scan("]).toList .code
      ["if", "err", "rows"])
    (by decide +kernel : Leads .code ("\t\t\t" ++ "&out.").toList .selector ["out"])
  have hscanned := fixed (by decide +kernel : Leads .code
    (lines ["\t\t); err != nil \x7b", "\t\t\treturn err", "\t\t\x7d", ""]).toList .code
      ["err", "nil", "return", "err"])
  have hcallback := fixed (by decide +kernel : Leads .code
    (lines ["\t\tif err := f(out); err != nil \x7b", "\t\t\treturn err", "\t\t\x7d", "\t\x7d",
      ""]).toList .code ["if", "err", "f", "out", "err", "nil", "return", "err"])
  have hclosed := fixed (by decide +kernel : Leads .code
    (lines ["\tif err := rows.Close(); err != nil \x7b", "\t\treturn err", "\t\x7d", "",
      "\treturn rows.Err()"]).toList .code
      ["if", "err", "rows", "err", "nil", "return", "err", "return", "rows"])
  unfold body bodyTypes
  rw [hkind]
  exact ((((hcall.append hopen).append hloop).append hrow).append
    ((hscanned.append hcallback).append hclosed)).congr (by decide) (by decide)

/-- The body for one row returns it with the error. -/
theorem mentions_body_one (hkind : v.kind = .one) (hargs : v.args = [])
    (hout : IsWord (outType v).toList)
    (hfields : ∀ s ∈ v.out, ∀ f ∈ s.fields, IsWord f.name.toList) :
    Mentions (body v) (bodyNames v.kind) (bodyTypes v) := by
  have hcall := mentions_call hargs (by decide +kernel : Leads .code
    ("\trow := " ++ "q.db." ++ "QueryRowContext" ++ "(ctx, ").toList .code ["row", "q", "ctx"])
  have hgap := mentions_of_leads (by decide +kernel : Leads .code
    (lines [""]).toList .code [])
  have hrow := mentions_row hout hfields
    (by decide +kernel : Leads .code "\tvar out ".toList .code ["var", "out"])
    (by decide +kernel : Leads .code (lines ["\terr := row.Scan("]).toList .code ["err", "row"])
    (by decide +kernel : Leads .code ("\t\t" ++ "&out.").toList .selector ["out"])
  have hrest := mentions_of_leads (by decide +kernel : Leads .code
    (lines ["\t)", "", "\treturn out, err"]).toList .code ["return", "out", "err"])
  unfold body bodyTypes
  rw [hkind]
  exact (((hcall.append hgap).append hrow).append hrest).congr (by decide) (by decide)

/-- The body without rows returns the error. -/
theorem mentions_body_exec (hkind : v.kind = .exec) (hargs : v.args = []) :
    Mentions (body v) (bodyNames v.kind) (bodyTypes v) := by
  have hcall := mentions_call hargs (by decide +kernel : Leads .code
    ("\t_, err := " ++ "q.db." ++ "ExecContext" ++ "(ctx, ").toList .code ["_", "err", "q", "ctx"])
  have hrest := mentions_of_leads (by decide +kernel : Leads .code
    (lines ["", "\treturn err"]).toList .code ["return", "err"])
  unfold body bodyTypes
  rw [hkind]
  exact (hcall.append hrest).congr (by decide) (by decide)

/-- A body that asks for the result of a call begins with that and looks for an error. -/
theorem mentions_result {result : String} {ws : List String} (hargs : v.args = [])
    (h : Leads .code (lines (returnIfError result)).toList .code ws) :
    Mentions (["\tresult, err := " ++ execute v "ExecContext"] ++ returnIfError result)
      (["result", "err", "q", "ctx"] ++ ws.filter isName) [] := by
  have hcall := mentions_call hargs (by decide +kernel : Leads .code
    ("\tresult, err := " ++ "q.db." ++ "ExecContext" ++ "(ctx, ").toList .code
      ["result", "err", "q", "ctx"])
  exact hcall.append (mentions_of_leads h)

/-- The bodies that return a number take it from the result. -/
theorem mentions_body_number (hkind : v.kind = .affected ∨ v.kind = .rowId)
    (hargs : v.args = []) :
    Mentions (body v) (bodyNames v.kind) (bodyTypes v) := by
  have hresult := mentions_result hargs (by decide +kernel : Leads .code
    (lines (returnIfError "0, err")).toList .code ["if", "err", "nil", "return", "0", "err"])
  unfold body bodyTypes
  rcases hkind with hkind | hkind
  · have hrest := mentions_of_leads (by decide +kernel : Leads .code
      (lines ["", "\treturn result.RowsAffected()"]).toList .code ["return", "result"])
    rw [hkind]
    exact (hresult.append hrest).congr (by decide) (by decide)
  · have hrest := mentions_of_leads (by decide +kernel : Leads .code
      (lines ["", "\treturn result.LastInsertId()"]).toList .code ["return", "result"])
    rw [hkind]
    exact (hresult.append hrest).congr (by decide) (by decide)

/-- The body that says whether rows changed looks for errors twice. -/
theorem mentions_body_exist (hkind : v.kind = .exist) (hargs : v.args = []) :
    Mentions (body v) (bodyNames v.kind) (bodyTypes v) := by
  have hopen : Leads .code (lines (returnIfError "false, err")).toList .code
      ["if", "err", "nil", "return", "false", "err"] := by
    decide +kernel
  have hrows := mentions_of_leads (by decide +kernel : Leads .code
    (lines ["", "\trows, err := result.RowsAffected()"]).toList .code ["rows", "err", "result"])
  have hrest := mentions_of_leads (by decide +kernel : Leads .code
    (lines ["", "\treturn rows > 0, nil"]).toList .code ["return", "rows", "0", "nil"])
  unfold body bodyTypes
  rw [hkind]
  exact ((((mentions_result hargs hopen).append hrows).append
    (mentions_of_leads hopen)).append hrest).congr (by decide) (by decide)

/-- The body of a method mentions the names of its type, and the struct where it reads rows. -/
theorem mentions_body (hargs : v.args = []) (hout : IsWord (outType v).toList)
    (hfields : ∀ s ∈ v.out, ∀ f ∈ s.fields, IsWord f.name.toList) :
    Mentions (body v) (bodyNames v.kind) (bodyTypes v) := by
  cases hkind : v.kind with
  | many => exact hkind ▸ mentions_body_many hkind hargs hout hfields
  | one => exact hkind ▸ mentions_body_one hkind hargs hout hfields
  | exec => exact hkind ▸ mentions_body_exec hkind hargs
  | affected => exact hkind ▸ mentions_body_number (.inl hkind) hargs
  | exist => exact hkind ▸ mentions_body_exist hkind hargs
  | rowId => exact hkind ▸ mentions_body_number (.inr hkind) hargs

/-- So the names of the body are these and, where it is a name, that of the struct. -/
theorem mem_ownNames_iff {name : String} (hout : IsWord (outType v).toList)
    (hfields : ∀ s ∈ v.out, ∀ f ∈ s.fields, IsWord f.name.toList) :
    name ∈ ownNames v ↔ name ∈ bodyNames v.kind ∨ name ∈ bodyTypes v ∧ isName name = true := by
  have hnames : ∀ kind, ∀ w ∈ bodyNames kind, isName w = true := by
    intro kind
    cases kind <;> decide
  have hmentions := mentions_body (v := { v with args := [] }) rfl hout hfields
  rw [ownNames, mem_names_iff ⟨hmentions.closes, rfl⟩]
  constructor
  · rintro ⟨hmem, hname⟩
    exact ((hmentions.mem_iff name hname).mp hmem).imp_right fun htype => ⟨htype, hname⟩
  · rintro (hmem | ⟨htype, hname⟩)
    · have hname := hnames v.kind name hmem
      exact ⟨(hmentions.mem_iff name hname).mpr (.inl hmem), hname⟩
    · exact ⟨(hmentions.mem_iff name hname).mpr (.inr htype), hname⟩

/-- The struct of the result rows and its fields have words for names. -/
theorem isWord_out (declared : List String) (q : Query) :
    ∀ s ∈ (QueryView.ofQuery .standard declared q).out,
      IsWord s.typeName.toList ∧ ∀ f ∈ s.fields, IsWord f.name.toList := by
  intro s hs
  replace hs : s ∈ QueryView.outOf .standard declared q := hs
  unfold QueryView.outOf at hs
  split at hs
  · cases hs
  · cases hs
    refine ⟨?_, fun f hf => isWord_name hf⟩
    show IsWord (ShapeView.nameOf .standard q.out q.name "row").toList
    unfold ShapeView.nameOf
    split
    · exact isWord_exported _
    · exact isWord_exported _

/-- So the method of a query refers to the names of its type, besides that struct. -/
theorem mem_ownNames_ofQuery_iff (declared : List String) (q : Query) {name : String}
    (hne : ∀ s ∈ (QueryView.ofQuery .standard declared q).out, name ≠ s.typeName)
    (hempty : name ≠ "") :
    name ∈ ownNames (QueryView.ofQuery .standard declared q) ↔ name ∈ bodyNames q.type := by
  have hout : IsWord (outType (QueryView.ofQuery .standard declared q)).toList ∧
      name ≠ outType (QueryView.ofQuery .standard declared q) := by
    unfold outType
    cases hv : (QueryView.ofQuery .standard declared q).out with
    | none => exact ⟨nofun, hempty⟩
    | some s => exact ⟨(isWord_out declared q s hv).1, hne s hv⟩
  have htypes : name ∉ bodyTypes (QueryView.ofQuery .standard declared q) := by
    unfold bodyTypes
    split <;> simp [hout.2]
  rw [mem_ownNames_iff hout.1 (fun s hs => (isWord_out declared q s hs).2)]
  exact or_iff_left fun h => htypes h.1

end Code

/-! ## Parameters -/

/-- The name made of a field is the parameter of a view: the first field with that name is not
numbered. -/
theorem FieldView.exists_param_eq {naming : Naming} {fields : List Field} {f : Field}
    (hf : f ∈ fields) : ∃ v ∈ ofFields naming [] [] fields, v.param = naming.param f.name := by
  have views := areViews_ofFields naming fields
  have hlength := congrArg List.length views.types
  rw [List.length_map, List.length_map] at hlength
  obtain ⟨i, hi, rfl⟩ := List.mem_iff_getElem.mp hf
  have hsplit := List.take_append_drop i (ofFields naming [] [] fields)
  rw [List.drop_eq_getElem_cons (by omega)] at hsplit
  obtain ⟨g, hg, -, hparam⟩ := views.named _ _ _ hsplit.symm
  rw [List.length_take, Nat.min_eq_left (by omega), List.getElem?_eq_getElem hi,
    Option.some.injEq] at hg
  rw [← hg] at hparam
  rcases hparam with ⟨-, hmade⟩ | ⟨htaken, -⟩
  · exact ⟨_, List.getElem_mem (by omega), hmade⟩
  · obtain ⟨v, hv, hparam⟩ := List.mem_map.mp htaken
    exact ⟨v, List.mem_of_mem_take hv, hparam⟩

/-- A name that does not end in a digit is the parameter of a view exactly if it is made of the name of
a field. -/
theorem FieldView.exists_param_eq_iff {naming : Naming} {fields : List Field} {made : String}
    (h : ¬ EndsInDigit made) : (∃ v ∈ ofFields naming [] [] fields, v.param = made) ↔
      ∃ f ∈ fields, naming.param f.name = made := by
  constructor
  · rintro ⟨v, hv, rfl⟩
    obtain ⟨f, hf, _, _, -, hparam⟩ := exists_isApart_of_mem hv
    exact ⟨f, hf, (hparam.eq h).symm⟩
  · rintro ⟨f, hf, rfl⟩
    exact exists_param_eq hf

/-- No view has a parameter exactly if it is made of the name of no field and is not given to a field
as a number. -/
theorem FieldView.forall_param_ne_iff {naming : Naming} {fields : List Field} {made : String} :
    (∀ v ∈ ofFields naming [] [] fields, v.param ≠ made) ↔
      ∀ f ∈ fields, naming.param f.name ≠ made ∧
        ∀ n, 2 ≤ n → made = numbered (naming.param f.name) n →
          made ∉ (ofFields naming [] [] fields).map (·.param) := by
  constructor
  · intro h f hf
    refine ⟨fun hmade => ?_, fun _ _ _ hmem => ?_⟩
    · obtain ⟨v, hv, hparam⟩ := exists_param_eq hf
      exact h v hv (hparam.trans hmade)
    · obtain ⟨v, hv, hparam⟩ := List.mem_map.mp hmem
      exact h v hv hparam
  · rintro h v hv rfl
    obtain ⟨f, hf, _, _, -, hparam⟩ := exists_isApart_of_mem hv
    rcases hparam with ⟨-, hmade⟩ | ⟨-, n, hn, hmade, -, -⟩
    · exact (h f hf).1 hmade.symm
    · refine (h f hf).2 n hn ?_ (List.mem_map_of_mem hv)
      rw [hmade, numbered_eq _ (by omega)]

/-- A word in lower case that is neither a keyword nor reserved is the parameter of the names that
spell it. -/
theorem Naming.param_eq_iff {name word : String} (h : Identifier.IsLowerWord word.toList)
    (hkeyword : word ∉ Identifier.keywords) (hreserved : word ∉ reservedLocals) :
    standard.param name = word ↔ Identifier.Spells name.toList word.toList := by
  have hunescaped : Identifier.unescaped false name.toList = word.toList ↔
      Identifier.Spells name.toList word.toList := Identifier.unescaped_false_eq_iff h
  have hname := Identifier.ofName_eq name false
  -- Neither an escaped keyword nor an avoided name is made of letters and digits alone.
  have hunder {text : String} (hmem : '_' ∈ text.toList) : text ≠ word := by
    rintro rfl
    exact Bool.false_ne_true (Identifier.isAlphanumeric_underscore.symm.trans (h.lower '_' hmem).1)
  have hident : Identifier.ofName name false = word ↔
      Identifier.Spells name.toList word.toList := by
    rw [← hunescaped, hname]
    split
    · next hmem =>
      simp only [Bool.not_false, Bool.true_and, List.contains_iff_mem] at hmem
      have hother : Identifier.unescaped false name.toList ≠ word.toList := by
        intro heq
        rw [heq, String.ofList_toList] at hmem
        exact hkeyword hmem
      exact iff_of_false (hunder (by simp)) hother
    · rw [← String.toList_inj, String.toList_ofList]
  rw [← hident]
  have hparam : standard.param name =
      avoiding reservedLocals (Identifier.ofName name false) := rfl
  rw [hparam, avoiding]
  split
  · next hmem =>
    rw [List.contains_iff_mem] at hmem
    have hother : Identifier.ofName name false ≠ word := by
      intro heq
      exact hreserved (heq ▸ hmem)
    exact iff_of_false (hunder (by simp)) hother
  · exact Iff.rfl

/-- The constants of bodies are parameters exactly if a field spells them. -/
theorem FieldView.exists_param_constant_iff {fields : List Field} {word : String}
    (h : word ∈ ["nil", "false"]) : (∃ v ∈ ofFields .standard [] [] fields, v.param = word) ↔
      ∃ f ∈ fields, Identifier.Spells f.name.toList word.toList := by
  have hchecked : ∀ word ∈ ["nil", "false"],
      Identifier.IsLowerWord word.toList ∧ word ∉ Identifier.keywords ∧
        word ∉ Naming.reservedLocals ∧ ¬ EndsInDigit word := by
    decide +kernel
  obtain ⟨hlower, hkeyword, hreserved, hdigit⟩ := hchecked word h
  rw [exists_param_eq_iff hdigit]
  exact exists_congr fun f => and_congr_right fun _ =>
    Naming.param_eq_iff hlower hkeyword hreserved

theorem Naming.param_ne_empty (name : String) : standard.param name ≠ "" := by
  have hident : Identifier.ofName name false ≠ "" := by
    obtain ⟨before, hchars, hbefore⟩ := Identifier.exists_toList_ofName name false
    intro hempty
    rw [hempty, String.toList_empty, eq_comm, List.append_eq_nil_iff] at hchars
    rcases hbefore with rfl | ⟨-, hletter⟩
    · exact absurd hchars.1 (by simp)
    · rw [hchars.2] at hletter
      cases hletter
  have hname : standard.param name =
      avoiding reservedLocals (Identifier.ofName name false) := rfl
  rw [hname, avoiding]
  split
  · simp
  · exact hident

/-- So the parameters of views are not. -/
theorem FieldView.param_ne_empty {fields : List Field} {v : FieldView}
    (h : v ∈ ofFields .standard [] [] fields) : v.param ≠ "" := by
  obtain ⟨f, -, taken, taken', -, hparam⟩ := exists_isApart_of_mem h
  intro hempty
  have hplain : ¬ EndsInDigit v.param := by
    rw [hempty]
    rintro ⟨c, -, hlast⟩
    cases hlast
  rw [hparam.eq hplain] at hempty
  exact Naming.param_ne_empty f.name hempty

/-! ## Parameters with the name of a struct -/

/-- Whether a name becomes a parameter that has the exported name of a title: both begin with a letter
or neither does, and their words are run together to one text, the first word of the name as it
stands. The exported name is none of those that are kept apart from names of the library and, as
parameters, are not. -/
def Naming.IsTitle (title name : String) : Prop :=
  (Identifier.startsWithLetter name.toList = Identifier.startsWithLetter title.toList ∧
      Identifier.plain false name.toList = Identifier.plain true title.toList) ∧
    (Identifier.ofName title true ∈ reservedExports → Identifier.ofName title true ∈ reservedLocals)

instance (title name : String) : Decidable (Naming.IsTitle title name) :=
  inferInstanceAs (Decidable (_ ∧ _))

/-- Keywords and the names that methods use begin in lower case, but for those that are kept apart
as exported names, too. -/
theorem Naming.exists_lower_initial :
    ∀ w ∈ Identifier.keywords ++ reservedLocals.filter (· ∉ reservedExports),
      ∃ c rest, w.toList = c :: rest ∧ Text.upperChar c ≠ [c] := by
  have hheads : ∀ w ∈ Identifier.keywords ++ reservedLocals.filter (· ∉ reservedExports),
      (w.toList.head?.any fun c => decide (Text.upperChar c ≠ [c])) = true := by
    decide +kernel
  intro w hw
  have hhead := hheads w hw
  cases hchars : w.toList with
  | nil =>
    rw [hchars] at hhead
    cases hhead
  | cons c rest =>
    rw [hchars] at hhead
    exact ⟨c, rest, rfl, of_decide_eq_true hhead⟩

/-- A parameter has the exported name of a title exactly if its name is one for it. -/
theorem Naming.param_eq_exported_iff {name title : String} :
    standard.param name = standard.exported title ↔ IsTitle title name := by
  let text := String.ofList (Identifier.unescaped false name.toList)
  let typeName := Identifier.ofName title true
  have hmeet : text = typeName ↔
      Identifier.startsWithLetter name.toList = Identifier.startsWithLetter title.toList ∧
        Identifier.plain false name.toList = Identifier.plain true title.toList := by
    rw [← Identifier.unescaped_eq_iff, ← String.ofList_inj, ← Identifier.ofName_true]
  have hlower {w : String}
      (hw : w ∈ Identifier.keywords ++ reservedLocals.filter (· ∉ reservedExports)) :
      typeName ≠ w ∧ typeName ≠ "_" ++ w :=
    Identifier.ofName_true_ne title (exists_lower_initial w hw)
  have hparam : standard.param name =
      avoiding reservedLocals (Identifier.ofName name false) := rfl
  have hexported : standard.exported title = avoiding reservedExports typeName := rfl
  have hname := Identifier.ofName_eq name false
  rw [IsTitle, ← hmeet, hparam, hexported]
  by_cases hkeyword : text ∈ Identifier.keywords
  · -- A keyword is escaped; reserved names have no underscore in front.
    have hescaped : Identifier.ofName name false = "_" ++ text := by
      rw [hname, if_pos (by simpa using hkeyword)]
    have hnot := hlower (List.mem_append_left _ hkeyword)
    have hlocal : "_" ++ text ∉ reservedLocals := fun hmem =>
      ne_underscore_append (List.mem_append_right _ hmem) text rfl
    rw [hescaped, avoiding_of_not_mem hlocal]
    refine iff_of_false (fun heq => ?_) fun h => hnot.1 h.1.symm
    by_cases hexport : typeName ∈ reservedExports
    · rw [avoiding_of_mem hexport] at heq
      have hreserved := List.mem_append_left reservedLocals hexport
      obtain ⟨c, rest, hchars, hc⟩ := head?_reserved _ hreserved
      have hheads := congrArg String.toList heq
      rw [String.toList_append, String.toList_append, hchars] at hheads
      exact hc (List.cons.inj hheads).1.symm
    · rw [avoiding_of_not_mem hexport] at heq
      exact hnot.2 heq.symm
  · have hplain : Identifier.ofName name false = text := by
      rw [hname, if_neg (by simpa using hkeyword)]
    have hfree {r : String} (hr : r ∈ reservedExports ++ reservedLocals) :
        text ≠ r ++ "_" ∧ typeName ≠ r ++ "_" :=
      ⟨hplain ▸ Identifier.ofName_ne_append_underscore name false (head?_reserved r hr),
        Identifier.ofName_ne_append_underscore title true (head?_reserved r hr)⟩
    rw [hplain]
    by_cases hlocal : text ∈ reservedLocals <;> by_cases hexport : typeName ∈ reservedExports
    · rw [avoiding_of_mem hlocal, avoiding_of_mem hexport, String.append_left_inj]
      exact ⟨fun heq => ⟨heq, fun _ => (heq ▸ hlocal : typeName ∈ reservedLocals)⟩, fun h => h.1⟩
    · rw [avoiding_of_mem hlocal, avoiding_of_not_mem hexport]
      refine iff_of_false (hfree (List.mem_append_right _ hlocal)).2.symm fun h => ?_
      refine (hlower (List.mem_append_right _ (List.mem_filter.mpr ⟨h.1 ▸ hlocal, ?_⟩))).1 rfl
      exact decide_eq_true hexport
    · rw [avoiding_of_not_mem hlocal, avoiding_of_mem hexport]
      refine iff_of_false (hfree (List.mem_append_left _ hexport)).1 fun h => hlocal ?_
      exact h.1 ▸ h.2 hexport
    · rw [avoiding_of_not_mem hlocal, avoiding_of_not_mem hexport]
      exact ⟨fun heq => ⟨heq, fun hmem => absurd hmem hexport⟩, fun h => h.1⟩

/-- A parameter named like the struct of the rows of `get`. -/
example : Naming.IsTitle "get_row" "GetRow" := by decide +kernel

/-- The parameters of a query that are not passed as a struct are the views of their fields. -/
theorem QueryView.params_ofQuery (naming : Naming) (declared : List String) {q : Query}
    (h : isBundled q = false) :
    (ofQuery naming declared q).params = FieldView.ofFields naming [] [] q.params.list :=
  if_neg (Bool.eq_false_iff.mp h)

/-- The types of the queries whose methods look whether there was an error. -/
def QueryType.testsError : List QueryType := [.many, .affected, .exist, .rowId]

/-- Of the names of a body only the constants are not reserved. -/
theorem Code.mem_bodyNames_iff {kind : QueryType} {name : String}
    (h : name ∉ Naming.reservedLocals) : name ∈ bodyNames kind ↔
      name = "nil" ∧ kind ∈ QueryType.testsError ∨ name = "false" ∧ kind = .exist := by
  simp only [Naming.reservedLocals, List.mem_cons, List.not_mem_nil, or_false, not_or] at h
  cases kind <;> simp [bodyNames, QueryType.testsError, h]

/-- The name of which the struct of the result rows has the exported form. -/
def Query.rowTitle (q : Query) : String := q.out.sharedName.getD s!"{q.name}_row"

/-- The struct of the result rows, which is there if there are any, has that name. -/
theorem QueryView.forall_out_iff (naming : Naming) (declared : List String) (q : Query)
    {p : String → Prop} : (∀ s ∈ (ofQuery naming declared q).out, p s.typeName) ↔
      (q.out.isEmpty = false → p (naming.exported q.rowTitle)) := by
  have hout : (ofQuery naming declared q).out = outOf naming declared q := rfl
  have hname : (ShapeView.ofFields naming declared q.out q.name "row").typeName =
      naming.exported q.rowTitle := by
    show ShapeView.nameOf naming q.out q.name "row" = _
    unfold ShapeView.nameOf Query.rowTitle
    cases q.out.sharedName with
    | none =>
      show naming.exported (q.name ++ "_" ++ "row") = naming.exported (q.name ++ "_row")
      rw [String.append_assoc]
      rfl
    | some name => rfl
  rw [hout, outOf]
  cases q.out.isEmpty <;> simp [hname]

/-- **Which parameters are captured.** The parameters of a query that are passed one by one are none of
the names that the body of its method refers to, exactly if no field spells `nil` where the body looks
whether there was an error, none spells `false` where it says whether rows were found, and none is a
title of the struct of the result rows, as `GetRow` is in `get`. Where that struct is named like a
field with a number, no parameter has the number either. -/
theorem parameters_apart_iff (declared : List String) (q : Query)
    (hinline : QueryView.isBundled q = false) :
    (∀ p ∈ (QueryView.ofQuery .standard declared q).params,
        p.param ∉ Code.ownNames (QueryView.ofQuery .standard declared q) ∧
          ∀ s ∈ (QueryView.ofQuery .standard declared q).out, p.param ≠ s.typeName) ↔
      (q.type ∈ QueryType.testsError →
        ∀ f ∈ q.params.list, ¬ Identifier.Spells f.name.toList "nil".toList) ∧
      (q.type = .exist →
        ∀ f ∈ q.params.list, ¬ Identifier.Spells f.name.toList "false".toList) ∧
      (q.out.isEmpty = false → ∀ f ∈ q.params.list, ¬ Naming.IsTitle q.rowTitle f.name ∧
        ∀ n, 2 ≤ n →
          Naming.standard.exported q.rowTitle =
              FieldView.numbered (Naming.standard.param f.name) n →
            Naming.standard.exported q.rowTitle ∉
              (QueryView.ofQuery .standard declared q).params.map (·.param)) := by
  have hout : (∀ p ∈ (QueryView.ofQuery .standard declared q).params,
      ∀ s ∈ (QueryView.ofQuery .standard declared q).out, p.param ≠ s.typeName) ↔
      (q.out.isEmpty = false → ∀ f ∈ q.params.list, ¬ Naming.IsTitle q.rowTitle f.name ∧
        ∀ n, 2 ≤ n →
          Naming.standard.exported q.rowTitle =
              FieldView.numbered (Naming.standard.param f.name) n →
            Naming.standard.exported q.rowTitle ∉
              (QueryView.ofQuery .standard declared q).params.map (·.param)) := by
    simp only [QueryView.forall_out_iff, ← Naming.param_eq_exported_iff]
    rw [QueryView.params_ofQuery .standard declared hinline, ← FieldView.forall_param_ne_iff]
    exact ⟨fun h hrows p hp => h p hp hrows, fun h p hp hrows => h hrows p hp⟩
  rw [← hout, QueryView.params_ofQuery .standard declared hinline]
  -- Apart from the struct, a parameter is captured if it is one of the constants of the body.
  have captured : ∀ p ∈ FieldView.ofFields .standard [] [] q.params.list,
      (∀ s ∈ (QueryView.ofQuery .standard declared q).out, p.param ≠ s.typeName) →
      (p.param ∈ Code.ownNames (QueryView.ofQuery .standard declared q) ↔
        p.param = "nil" ∧ q.type ∈ QueryType.testsError ∨ p.param = "false" ∧ q.type = .exist) := by
    intro p hp hout
    rw [Code.mem_ownNames_ofQuery_iff declared q hout (FieldView.param_ne_empty hp),
      Code.mem_bodyNames_iff (FieldView.not_mem_avoided hp).2.1]
  constructor
  · intro h
    refine ⟨fun htype f hf hspells => ?_, fun htype f hf hspells => ?_, fun p hp => (h p hp).2⟩
    · obtain ⟨p, hp, hnil⟩ := (FieldView.exists_param_constant_iff (by simp)).mpr ⟨f, hf, hspells⟩
      exact (h p hp).1 ((captured p hp (h p hp).2).mpr (.inl ⟨hnil, htype⟩))
    · obtain ⟨p, hp, hfalse⟩ := (FieldView.exists_param_constant_iff (by simp)).mpr ⟨f, hf, hspells⟩
      exact (h p hp).1 ((captured p hp (h p hp).2).mpr (.inr ⟨hfalse, htype⟩))
  · rintro ⟨hnil, hfalse, hout⟩ p hp
    refine ⟨fun hmem => ?_, hout p hp⟩
    rcases (captured p hp (hout p hp)).mp hmem with ⟨hparam, htype⟩ | ⟨hparam, htype⟩
    · obtain ⟨f, hf, hspells⟩ := (FieldView.exists_param_constant_iff (by simp)).mp ⟨p, hp, hparam⟩
      exact hnil htype f hf hspells
    · obtain ⟨f, hf, hspells⟩ := (FieldView.exists_param_constant_iff (by simp)).mp ⟨p, hp, hparam⟩
      exact hfalse htype f hf hspells

/-- A query whose parameters have the names of a variable, of the context and, in lower case, of the
struct of its rows. -/
def namedAsLocals : Query where
  name := "touch"
  comment := .empty
  type := .exist
  sql := { text := "update t set c = ? returning id" }
  params := { list := [
    { name := "err", type := "error", comment := .empty, position := .unknown },
    { name := "ctx", type := "string", comment := .empty, position := .unknown },
    { name := "touch_row", type := "int", comment := .empty, position := .unknown }] }
  out := { list := [{ name := "id", type := "int", comment := .empty, position := .unknown }] }
  position := .unknown

/-- Its parameters are other names than those of the body. -/
theorem parameters_apart_of_locals : QueryView.isBundled namedAsLocals = false ∧
    ∀ p ∈ (QueryView.ofQuery .standard [] namedAsLocals).params,
      p.param ∉ Code.ownNames (QueryView.ofQuery .standard [] namedAsLocals) ∧
        ∀ s ∈ (QueryView.ofQuery .standard [] namedAsLocals).out, p.param ≠ s.typeName := by
  have hinline : QueryView.isBundled namedAsLocals = false := by decide
  have htitle : ∀ f ∈ namedAsLocals.params.list,
      ¬ Naming.IsTitle namedAsLocals.rowTitle f.name := by
    decide +kernel
  have hfree : Naming.standard.exported namedAsLocals.rowTitle ∉
      (QueryView.ofQuery .standard [] namedAsLocals).params.map (·.param) := by
    decide +kernel
  exact ⟨hinline, (parameters_apart_iff [] namedAsLocals hinline).mpr
    ⟨fun _ => by decide, fun _ => by decide, fun _ f hf => ⟨htitle f hf, fun _ _ _ => hfree⟩⟩⟩

/-- A document with a parameter that has the name of a constant. -/
def namedAsNil : String := "a:\n  type: exist\n  sql: x\n  params:\n    nil: int\n"

/-- The body of its method compares errors with the parameter. -/
theorem parameters_captured_of_nil :
    ¬ ∀ (source : String) (queries : Queries), Queries.parse source = .ok queries →
      ∀ q ∈ queries.list, ∀ declared, ∀ p ∈ (QueryView.ofQuery .standard declared q).params,
        p.param ∉ Code.ownNames (QueryView.ofQuery .standard declared q) := by
  intro apart
  have h : Queries.parse namedAsNil = .ok ((Queries.parse namedAsNil).toOption.getD .empty) :=
    Grammar.parse_eq_ok (by decide +kernel)
  have hquery : ((Queries.parse namedAsNil).toOption.getD .empty).list.map (fun q =>
      (QueryView.isBundled q, q.type, q.out.isEmpty, q.params.list.map (·.name))) =
        [(false, .exist, true, ["nil"])] := by
    decide +kernel
  obtain ⟨q, hlist, hq⟩ := List.map_eq_singleton_iff.mp hquery
  simp only [Prod.mk.injEq] at hq
  obtain ⟨hinline, htype, hempty, hnames⟩ := hq
  obtain ⟨f, hfields, hname⟩ := List.map_eq_singleton_iff.mp hnames
  have hspells : ∃ f ∈ q.params.list, Identifier.Spells f.name.toList "nil".toList :=
    ⟨f, by rw [hfields]; exact List.mem_singleton_self f, by rw [hname]; decide⟩
  have hout : (QueryView.ofQuery .standard [] q).out = none := if_pos hempty
  obtain ⟨p, hp, hparam⟩ := (FieldView.exists_param_constant_iff (by simp)).mpr hspells
  rw [← QueryView.params_ofQuery .standard [] hinline] at hp
  refine apart _ _ h q (by rw [hlist]; exact List.mem_singleton_self q) [] p hp ?_
  rw [hparam, Code.mem_ownNames_ofQuery_iff [] q (by simp [hout]) (by decide), htype]
  decide

end QueryBook
