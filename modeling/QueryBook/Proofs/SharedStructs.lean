import QueryBook.Accessor.View
import QueryBook.Proofs.Grammar

/-!
# Structs that queries share

Every block of fields that generated code passes as a struct is given a type name, made of the name
of its anchor or of its query. A type is declared where its name first occurs. The declared struct
is that of all blocks with the name exactly if blocks of one anchor agree, and so do blocks of
different origins whose names become the same.
-/

namespace QueryBook

/-! ## Blocks and their origins -/

/-- What the struct of a block is named for. -/
inductive StructOrigin where
  /-- The anchor of the block. -/
  | shared (name : String)
  /-- The query, and what the block is to it. -/
  | own (query role : String)
  deriving DecidableEq

/-- The type name of an origin. -/
def StructOrigin.typeName (naming : Naming) : StructOrigin → String
  | shared name => naming.exported name
  | own query role => naming.exported s!"{query}_{role}"

/-- A block of fields that is passed as a struct. -/
structure StructBlock where
  origin : StructOrigin
  fields : Fields
  deriving DecidableEq

namespace StructBlock

/-- The block of a query in a role. -/
def ofFields (fields : Fields) (query role : String) : StructBlock where
  origin :=
    match fields.sharedName with
    | some name => .shared name
    | none => .own query role
  fields

/-- The blocks of a query, the result before the parameters. -/
def ofQuery (q : Query) : List StructBlock :=
  (if q.out.isEmpty then [] else [ofFields q.out q.name "row"]) ++
    if QueryView.isBundled q then [ofFields q.params q.name "params"] else []

/-- The type name of a block. -/
def typeName (naming : Naming) (b : StructBlock) : String := b.origin.typeName naming

/-- The names of struct fields, each made different from those before it. -/
def fieldNames (naming : Naming) (taken : List String) : List String → List String
  | [] => []
  | name :: rest =>
    let name := FieldView.freeName taken (naming.exported name)
    name :: fieldNames naming (name :: taken) rest

/-- The struct of a block: the names and the types of its fields. -/
def layout (naming : Naming) (b : StructBlock) : List (String × String) :=
  (fieldNames naming [] (b.fields.list.map (·.name))).zip (b.fields.list.map (·.type))

end StructBlock

/-! ## Structs of views -/

/-- The struct of a shape: the names and the types of its fields. -/
def ShapeView.layout (s : ShapeView) : List (String × String) :=
  s.fields.map fun f => (f.name, f.type)

/-- The shapes of views, in order. -/
def QueryView.shapes (views : List QueryView) : List ShapeView :=
  views.flatMap fun v => v.out.toList ++ v.bundle.toList

/-- Shapes with one type name are one struct. -/
def Coherent (shapes : List ShapeView) : Prop :=
  ∀ s ∈ shapes, ∀ s' ∈ shapes, s.typeName = s'.typeName → s.layout = s'.layout

instance (shapes : List ShapeView) : Decidable (Coherent shapes) := by
  unfold Coherent
  infer_instance

variable {naming : Naming} {declared : List String}

/-- Parameter names and comments do not matter to a struct. -/
theorem FieldView.map_ofFields (naming : Naming) (fields : List Field) (names params : List String) :
    (FieldView.ofFields naming names params fields).map (fun f => (f.name, f.type)) =
      (StructBlock.fieldNames naming names (fields.map (·.name))).zip (fields.map (·.type)) := by
  induction fields generalizing names params with
  | nil => rfl
  | cons f rest ih =>
    rw [FieldView.ofFields, List.map_cons, ih]
    rfl

/-- The comments of views are those of the fields. -/
theorem FieldView.map_comment_ofFields (naming : Naming) (names params : List String)
    (fields : List Field) : (FieldView.ofFields naming names params fields).map (·.comment) =
      fields.map (·.comment.lines) := by
  induction fields generalizing names params with
  | nil => rfl
  | cons f rest ih =>
    rw [FieldView.ofFields, List.map_cons, ih, List.map_cons]

/-- The shape of a block has its name and its struct. -/
theorem ShapeView.ofFields_eq (fields : Fields) (query role : String) :
    ((ShapeView.ofFields naming declared fields query role).typeName,
        (ShapeView.ofFields naming declared fields query role).layout) =
      ((StructBlock.ofFields fields query role).typeName naming,
        (StructBlock.ofFields fields query role).layout naming) := by
  have hname : ShapeView.nameOf naming fields query role =
      (StructBlock.ofFields fields query role).typeName naming := by
    unfold ShapeView.nameOf StructBlock.typeName StructBlock.ofFields
    cases fields.sharedName <;> rfl
  unfold ShapeView.layout ShapeView.ofFields
  rw [FieldView.map_ofFields, hname]
  rfl

/-- The shapes of a query are those of its blocks. -/
theorem QueryView.shapes_ofQuery (q : Query) :
    ((QueryView.ofQuery naming declared q).out.toList ++
        (QueryView.ofQuery naming declared q).bundle.toList).map
        (fun s => (s.typeName, s.layout)) =
      (StructBlock.ofQuery q).map fun b => (b.typeName naming, b.layout naming) := by
  rw [List.map_append, StructBlock.ofQuery, List.map_append]
  congr 1
  · show ((QueryView.outOf naming declared q).toList).map _ = _
    unfold QueryView.outOf
    split
    · rfl
    · exact congrArg (fun p => [p]) (ShapeView.ofFields_eq q.out q.name "row")
  · show ((QueryView.bundleOf naming _ q).toList).map _ = _
    unfold QueryView.bundleOf
    split
    · exact congrArg (fun p => [p]) (ShapeView.ofFields_eq q.params q.name "params")
    · rfl

/-- The shapes of queries are those of their blocks, in order. -/
theorem QueryView.shapes_ofQueries (queries : List Query) (declared : List String) :
    (QueryView.shapes (QueryView.ofQueries naming declared queries)).map
        (fun s => (s.typeName, s.layout)) =
      (queries.flatMap StructBlock.ofQuery).map fun b => (b.typeName naming, b.layout naming) := by
  induction queries generalizing declared with
  | nil => rfl
  | cons q rest ih =>
    rw [QueryView.ofQueries, QueryView.shapes, List.flatMap_cons, List.map_append,
      QueryView.shapes_ofQuery, List.flatMap_cons, List.map_append]
    exact congrArg _ (ih _)

/-! ## Declarations -/

/-- Shapes are declared where their names first occur, names declared before left out. -/
def DeclaredFirst (declared : List String) : List ShapeView → Prop
  | [] => True
  | s :: rest => (s.declare = true ↔ s.typeName ∉ declared) ∧
    DeclaredFirst (s.typeName :: declared) rest

/-- The struct of a block is declared exactly if its name is not declared before. -/
theorem ShapeView.declare_ofFields (fields : Fields) (query role : String) :
    (ShapeView.ofFields naming declared fields query role).declare = true ↔
      (ShapeView.ofFields naming declared fields query role).typeName ∉ declared := by
  simp [ShapeView.ofFields]

/-- One struct more in front of those that follow it. -/
theorem DeclaredFirst.declaring {shape : Option ShapeView} {rest : List ShapeView}
    (hs : ∀ s ∈ shape, (s.declare = true ↔ s.typeName ∉ declared))
    (h : DeclaredFirst (QueryView.declaring declared shape) rest) :
    DeclaredFirst declared (shape.toList ++ rest) := by
  cases shape with
  | none => exact h
  | some s => exact ⟨hs s rfl, h⟩

/-- The shapes of a query are declared where their names first occur. -/
theorem declaredFirst_ofQuery (q : Query) {rest : List ShapeView}
    (h : DeclaredFirst
      (QueryView.declaredAfter declared (QueryView.ofQuery naming declared q)) rest) :
    DeclaredFirst declared ((QueryView.ofQuery naming declared q).out.toList ++
      ((QueryView.ofQuery naming declared q).bundle.toList ++ rest)) := by
  refine .declaring ?_ (.declaring ?_ h)
  · show ∀ s ∈ QueryView.outOf naming declared q, _
    unfold QueryView.outOf
    split
    · exact fun _ hs => absurd hs (by simp)
    · rintro s ⟨⟩
      exact ShapeView.declare_ofFields q.out q.name "row"
  · show ∀ s ∈ QueryView.bundleOf naming _ q, _
    unfold QueryView.bundleOf
    split
    · rintro s ⟨⟩
      exact ShapeView.declare_ofFields q.params q.name "params"
    · exact fun _ hs => absurd hs (by simp)

/-- The shapes of queries are declared where their names first occur. -/
theorem declaredFirst_ofQueries (queries : List Query) (declared : List String) :
    DeclaredFirst declared (QueryView.shapes (QueryView.ofQueries naming declared queries)) := by
  induction queries generalizing declared with
  | nil => exact trivial
  | cons q rest ih =>
    rw [QueryView.ofQueries, QueryView.shapes, List.flatMap_cons, List.append_assoc]
    exact declaredFirst_ofQuery q (ih _)

/-- A name that is not declared before is declared once, and a name declared before is not declared
again. -/
theorem DeclaredFirst.length_filter {shapes : List ShapeView} (h : DeclaredFirst declared shapes)
    {name : String} (hname : name ∈ shapes.map (·.typeName)) :
    (shapes.filter fun d => d.declare && d.typeName = name).length =
      if name ∈ declared then 0 else 1 := by
  -- no shape declares a name that is declared before
  have gone : ∀ {shapes : List ShapeView} {declared : List String}, DeclaredFirst declared shapes →
      name ∈ declared → shapes.filter (fun d => d.declare && d.typeName = name) = [] := by
    intro shapes
    induction shapes with
    | nil => exact fun _ _ => rfl
    | cons s rest ih =>
      intro declared h hd
      rw [List.filter_cons_of_neg, ih h.2 (List.mem_cons_of_mem _ hd)]
      rw [Bool.and_eq_true, decide_eq_true_eq, not_and]
      rintro hs rfl
      exact h.1.mp hs hd
  induction shapes generalizing declared with
  | nil => exact absurd hname List.not_mem_nil
  | cons s rest ih =>
    by_cases hd : name ∈ declared
    · rw [gone h hd, if_pos hd, List.length_nil]
    · rw [if_neg hd]
      by_cases hs : s.typeName = name
      · have declare := h.1.mpr (hs ▸ hd)
        rw [List.filter_cons_of_pos (by simp [declare, hs]), gone h.2 (by simp [hs]),
          List.length_singleton]
      · rw [List.filter_cons_of_neg (by simp [hs])]
        have hr : name ∈ rest.map (·.typeName) := by
          rw [List.map_cons, List.mem_cons] at hname
          exact hname.resolve_left (Ne.symm hs)
        rw [ih h.2 hr, if_neg]
        rw [List.mem_cons, not_or]
        exact ⟨Ne.symm hs, hd⟩

/-! ## Coherence -/

/-- A block that is named for a query is one of its two blocks. -/
theorem StructBlock.eq_of_own {q : Query} {b : StructBlock} {query role : String}
    (hb : b ∈ StructBlock.ofQuery q) (ho : b.origin = .own query role) :
    query = q.name ∧ b.fields = if role = "row" then q.out else q.params := by
  have own (fields : Fields) (role' : String)
      (h : (StructBlock.ofFields fields q.name role').origin = .own query role) :
      query = q.name ∧ role = role' := by
    unfold StructBlock.ofFields at h
    dsimp only at h
    split at h
    · cases h
    · cases h
      exact ⟨rfl, rfl⟩
  rw [StructBlock.ofQuery, List.mem_append] at hb
  rcases hb with hb | hb
  · split at hb
    · cases hb
    · rw [List.mem_singleton] at hb
      rw [hb] at ho
      obtain ⟨hq, hr⟩ := own q.out "row" ho
      rw [hb, if_pos hr]
      exact ⟨hq, rfl⟩
  · split at hb
    · rw [List.mem_singleton] at hb
      rw [hb] at ho
      obtain ⟨hq, hr⟩ := own q.params "params" ho
      rw [hb, if_neg (by rw [hr]; decide)]
      exact ⟨hq, rfl⟩
    · cases hb

/-- Blocks that are named for a query in one role are one block. -/
theorem StructBlock.fields_eq_of_own {queries : List Query} (h : (queries.map (·.name)).Nodup)
    {b b' : StructBlock} {query role : String} (hb : b ∈ queries.flatMap StructBlock.ofQuery)
    (hb' : b' ∈ queries.flatMap StructBlock.ofQuery) (ho : b.origin = .own query role)
    (ho' : b'.origin = .own query role) : b.fields = b'.fields := by
  obtain ⟨q, hq, hb⟩ := List.mem_flatMap.mp hb
  obtain ⟨q', hq', hb'⟩ := List.mem_flatMap.mp hb'
  obtain ⟨hn, hf⟩ := StructBlock.eq_of_own hb ho
  obtain ⟨hn', hf'⟩ := StructBlock.eq_of_own hb' ho'
  have same : q = q' := List.inj_on_of_nodup_map h hq hq' (hn.symm.trans hn')
  rw [hf, hf', same]

/-- The shapes of queries are coherent exactly if their blocks are. -/
theorem coherent_iff_blocks (queries : List Query) (declared : List String) :
    Coherent (QueryView.shapes (QueryView.ofQueries naming declared queries)) ↔
      ∀ b ∈ queries.flatMap StructBlock.ofQuery, ∀ b' ∈ queries.flatMap StructBlock.ofQuery,
        b.typeName naming = b'.typeName naming → b.layout naming = b'.layout naming := by
  let shapes := QueryView.shapes (QueryView.ofQueries naming declared queries)
  calc
    Coherent shapes ↔
        ∀ p ∈ shapes.map (fun s => (s.typeName, s.layout)),
          ∀ p' ∈ shapes.map (fun s => (s.typeName, s.layout)), p.1 = p'.1 → p.2 = p'.2 := by
      simp only [Coherent, List.forall_mem_map]
    _ ↔ _ := by
      simp only [shapes, QueryView.shapes_ofQueries, List.forall_mem_map]

/-- Every shape has a declaration under its name, and only one. -/
theorem exists_declaration (queries : List Query) {s : ShapeView}
    (h : s ∈ QueryView.shapes (QueryView.ofQueries naming [] queries)) :
    ∃ d, (QueryView.shapes (QueryView.ofQueries naming [] queries)).filter
      (fun d => d.declare && d.typeName = s.typeName) = [d] := by
  rw [← List.length_eq_one_iff]
  exact (declaredFirst_ofQueries queries []).length_filter (List.mem_map.mpr ⟨s, h, rfl⟩)

/-- **When shared structs are one struct.** In the code for a document every type name is declared
once. All shapes with the name have the struct declared under it exactly if blocks of one anchor
agree, and blocks of different origins agree that have one type name. -/
theorem structs_coherent_iff [Diagnosis] {source : String} {queries : Queries}
    (h : Queries.parse source = .ok queries) :
    let shapes := QueryView.shapes (QueryView.ofQueries .standard [] queries.list)
    let blocks := queries.list.flatMap StructBlock.ofQuery
    (∀ s ∈ shapes, ∃ d, shapes.filter (fun d => d.declare && d.typeName = s.typeName) = [d]) ∧
      (Coherent shapes ↔ ∀ s ∈ shapes, ∀ d ∈ shapes, d.declare = true →
        d.typeName = s.typeName → d.layout = s.layout) ∧
      (Coherent shapes ↔
        (∀ b ∈ blocks, ∀ b' ∈ blocks, ∀ name, b.origin = .shared name →
          b'.origin = .shared name → b.layout .standard = b'.layout .standard) ∧
        ∀ b ∈ blocks, ∀ b' ∈ blocks, b.origin ≠ b'.origin →
          b.typeName .standard = b'.typeName .standard →
            b.layout .standard = b'.layout .standard) := by
  refine ⟨fun s hs => exists_declaration queries.list hs, ⟨?_, ?_⟩, ?_⟩
  · intro coherent s hs d hd _ hn
    exact coherent d hd s hs hn
  · intro declaration s hs s' hs' hn
    obtain ⟨d, he⟩ := exists_declaration queries.list hs
    obtain ⟨hd, hp⟩ := List.mem_filter.mp (he ▸ List.mem_singleton_self d)
    rw [Bool.and_eq_true, decide_eq_true_eq] at hp
    rw [← declaration s hs d hd hp.1 hp.2, ← declaration s' hs' d hd hp.1 (hp.2.trans hn)]
  · rw [coherent_iff_blocks]
    constructor
    · intro agree
      refine ⟨?_, fun b hb b' hb' _ hn => agree b hb b' hb' hn⟩
      intro b hb b' hb' name ho ho'
      refine agree b hb b' hb' ?_
      rw [StructBlock.typeName, StructBlock.typeName, ho, ho']
    · rintro ⟨anchors, others⟩ b hb b' hb' hn
      by_cases ho : b.origin = b'.origin
      · cases hr : b'.origin with
        | shared name => exact anchors b hb b' hb' name (ho.trans hr) hr
        | own query role =>
          -- Names of queries are distinct, so there is one block of a query in a role.
          have fields := StructBlock.fields_eq_of_own (Grammar.nodup_names_of_parse h) hb hb'
            (ho.trans hr) hr
          rw [StructBlock.layout, StructBlock.layout, fields]
      · exact others b hb b' hb' ho hn

/-- Two queries with one block. -/
def oneBlock : String :=
  "get:\n  type: one\n  sql: x\n  out: &user_row\n    id: int\nlist:\n  sql: y\n  out: *user_row\n"

/-- The structs of two queries with one block are coherent. -/
theorem structs_coherent_of_one_block :
    Queries.parse oneBlock = .ok ((Queries.parse oneBlock).toOption.getD .empty) ∧
      Coherent (QueryView.shapes
        (QueryView.ofQueries .standard [] ((Queries.parse oneBlock).toOption.getD .empty).list)) := by
  have h : Queries.parse oneBlock = .ok ((Queries.parse oneBlock).toOption.getD .empty) :=
    Grammar.parse_eq_ok (by decide +kernel)
  have agree : ∀ b ∈ ((Queries.parse oneBlock).toOption.getD .empty).list.flatMap
      StructBlock.ofQuery, b.layout .standard = [("ID", "int")] := by
    decide +kernel
  refine ⟨h, (structs_coherent_iff h).2.2.mpr ⟨?_, ?_⟩⟩
  · intro b hb b' hb' _ _ _
    rw [agree b hb, agree b' hb']
  · intro b hb b' hb' _ _
    rw [agree b hb, agree b' hb']

/-- A result without an anchor and an anchored one, whose names become the same. -/
def twoBlocks : String :=
  "get:\n  sql: x\n  out:\n    a: int\nlist:\n  sql: y\n  out: &GetRow\n    b: string\n"

/-- The second query of two blocks with one name is attached to the struct of the first, which has
other fields. -/
theorem structs_incoherent_of_two_blocks :
    ¬ ∀ (source : String) (queries : Queries), Queries.parse source = .ok queries →
      Coherent (QueryView.shapes (QueryView.ofQueries .standard [] queries.list)) := by
  intro coherent
  have h : Queries.parse twoBlocks = .ok ((Queries.parse twoBlocks).toOption.getD .empty) :=
    Grammar.parse_eq_ok (by decide +kernel)
  have := coherent _ _ h
  revert this
  decide +kernel

end QueryBook
