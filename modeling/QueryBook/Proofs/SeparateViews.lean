import QueryBook.Proofs.SharedStructs
import QueryBook.Proofs.SqlLiterals

/-!
# Views of one file

The views of a file are built one after the other, and only the type names that are declared go from
one to the next. So a view is the one its query has alone but for what it declares, a shape is
declared where its type name occurs first, and what a file says about further queries depends on no
more than the type names declared before them.
-/

namespace QueryBook

variable {naming : Naming} {declared declared' : List String}

/-! ## Views without declarations -/

/-- A shape that is not declared. -/
def ShapeView.undeclared (s : ShapeView) : ShapeView := { s with declare := false }

namespace QueryView

/-- A view that declares nothing. -/
def undeclared (v : QueryView) : QueryView :=
  { v with bundle := v.bundle.map (·.undeclared), out := v.out.map (·.undeclared) }

/-- But for what it declares, the view of a query does not depend on what was declared before. -/
theorem undeclared_ofQuery (naming : Naming) (declared declared' : List String) (q : Query) :
    (ofQuery naming declared q).undeclared = (ofQuery naming declared' q).undeclared := by
  have hout : (outOf naming declared q).map (·.undeclared) =
      (outOf naming declared' q).map (·.undeclared) := by
    unfold outOf
    split <;> rfl
  unfold undeclared ofQuery
  dsimp only
  rw [hout]
  unfold bundleOf
  split <;> rfl

/-- So the views of queries are those that each query has alone. -/
theorem map_undeclared_ofQueries (naming : Naming) (declared : List String) (queries : List Query) :
    (ofQueries naming declared queries).map (·.undeclared) =
      queries.map fun q => (ofQuery naming [] q).undeclared := by
  induction queries generalizing declared with
  | nil => rfl
  | cons q rest ih => rw [ofQueries, List.map_cons, List.map_cons, ih, undeclared_ofQuery]

end QueryView

/-! ## Declared type names -/

/-- A shape is declared exactly if its type name is not declared before and is that of no shape
before it. -/
theorem DeclaredFirst.declare_iff {before after : List ShapeView} {s : ShapeView}
    (h : DeclaredFirst declared (before ++ s :: after)) :
    s.declare = true ↔ s.typeName ∉ declared ∧ s.typeName ∉ before.map (·.typeName) := by
  induction before generalizing declared with
  | nil => exact h.1.trans (by simp)
  | cons first before ih =>
    rw [ih h.2, List.mem_cons, List.map_cons, List.mem_cons]
    tauto

namespace QueryView

/-- The type names that are declared in views. -/
def declaredTypes (views : List QueryView) : List String :=
  ((shapes views).filter (·.declare)).map (·.typeName)

/-- Type names with that of a struct. -/
theorem mem_declaring {shape : Option ShapeView} {name : String} :
    name ∈ declaring declared shape ↔
      name ∈ declared ∨ name ∈ shape.toList.map (·.typeName) := by
  cases shape with
  | none => simp [declaring]
  | some s => simp [declaring, or_comm]

/-- Type names with those of views. -/
theorem mem_foldl_declaredAfter {views : List QueryView} {name : String} :
    name ∈ views.foldl declaredAfter declared ↔
      name ∈ declared ∨ name ∈ (shapes views).map (·.typeName) := by
  induction views generalizing declared with
  | nil => simp [shapes]
  | cons v rest ih =>
    have hshapes : shapes (v :: rest) = v.out.toList ++ (v.bundle.toList ++ shapes rest) := by
      rw [shapes, List.flatMap_cons, List.append_assoc]
      rfl
    rw [List.foldl_cons, ih, declaredAfter, mem_declaring, mem_declaring, hshapes, List.map_append,
      List.map_append, List.mem_append, List.mem_append, or_assoc, or_assoc]

/-- The type names of a file are those that are declared in it. -/
theorem mem_declaredTypes {queries : List Query} {name : String} :
    name ∈ declaredTypes (ofQueries naming [] queries) ↔
      name ∈ (shapes (ofQueries naming [] queries)).map (·.typeName) := by
  constructor
  · intro h
    obtain ⟨s, hs, rfl⟩ := List.mem_map.mp h
    exact List.mem_map_of_mem (List.mem_of_mem_filter hs)
  · intro h
    obtain ⟨s, hs, rfl⟩ := List.mem_map.mp h
    obtain ⟨d, hd⟩ := exists_declaration queries hs
    obtain ⟨hmem, hdeclares⟩ := List.mem_filter.mp (hd ▸ List.mem_singleton_self d)
    rw [Bool.and_eq_true, decide_eq_true_eq] at hdeclares
    rw [← hdeclares.2]
    exact List.mem_map_of_mem (List.mem_filter.mpr ⟨hmem, hdeclares.1⟩)

/-! ## Views behind other views -/

/-- A struct depends on the type names declared before as a set. -/
theorem ofFields_congr (h : ∀ name, name ∈ declared ↔ name ∈ declared') (fields : Fields)
    (query role : String) : ShapeView.ofFields naming declared fields query role =
      ShapeView.ofFields naming declared' fields query role := by
  have hcontains (name : String) : declared.contains name = declared'.contains name := by
    rw [Bool.eq_iff_iff, List.contains_iff_mem, List.contains_iff_mem, h]
  unfold ShapeView.ofFields
  dsimp only
  rw [hcontains]

/-- So does a view. -/
theorem ofQuery_congr (h : ∀ name, name ∈ declared ↔ name ∈ declared') (q : Query) :
    ofQuery naming declared q = ofQuery naming declared' q := by
  have hout : outOf naming declared q = outOf naming declared' q := by
    unfold outOf
    rw [ofFields_congr h]
  have hdeclaring : ∀ name, name ∈ declaring declared (outOf naming declared' q) ↔
      name ∈ declaring declared' (outOf naming declared' q) := by
    intro name
    rw [mem_declaring, mem_declaring, h]
  have hbundle : bundleOf naming (declaring declared (outOf naming declared' q)) q =
      bundleOf naming (declaring declared' (outOf naming declared' q)) q := by
    unfold bundleOf
    rw [ofFields_congr hdeclaring]
  unfold ofQuery
  dsimp only
  rw [hout, hbundle]

/-- So do views. -/
theorem ofQueries_congr (h : ∀ name, name ∈ declared ↔ name ∈ declared') (queries : List Query) :
    ofQueries naming declared queries = ofQueries naming declared' queries := by
  induction queries generalizing declared declared' with
  | nil => rfl
  | cons q rest ih =>
    rw [ofQueries, ofQueries, ofQuery_congr h]
    refine congrArg _ (ih fun name => ?_)
    rw [declaredAfter, declaredAfter, mem_declaring, mem_declaring, mem_declaring, mem_declaring, h]

theorem ofQueries_append (declared : List String) (queries more : List Query) :
    ofQueries naming declared (queries ++ more) = ofQueries naming declared queries ++
      ofQueries naming ((ofQueries naming declared queries).foldl declaredAfter declared) more := by
  induction queries generalizing declared with
  | nil => rfl
  | cons q rest ih =>
    rw [List.cons_append, ofQueries, ih, ofQueries, List.foldl_cons, List.cons_append]

end QueryView

/-! ## The text of a file -/

/-- The sections of queries, given the type names declared before. -/
def Code.sectionsAfter (naming : Naming) (declared : List String) (queries : List Query) : String :=
  String.join ((QueryView.ofQueries naming declared queries).map querySection)

theorem Code.ofQueries_append (m : Metadata) (naming : Naming) (file : String) (imports : ImportSet)
    {queries : List Query} (h : queries ≠ []) (more : List Query) :
    Code.ofQueries m naming file imports (queries ++ more) =
      Code.ofQueries m naming file imports queries ++ Code.sectionsAfter naming
        ((QueryView.ofQueries naming [] queries).foldl QueryView.declaredAfter []) more := by
  obtain ⟨v, views, hviews⟩ : ∃ v views, QueryView.ofQueries naming [] queries = v :: views := by
    cases queries with
    | nil => exact absurd rfl h
    | cons q rest => exact ⟨_, _, rfl⟩
  unfold Code.ofQueries Code.sectionsAfter queriesFile
  rw [QueryView.ofQueries_append, hviews, List.map_append, String.join_append,
    ← String.append_assoc]
  rfl

/-- **Views do not interfere.** The views of a file are those its queries have alone but for what
they declare. A shape is declared exactly if no shape before it has its type name. What further
queries add to a file depends on them, the naming and the set of the type names that the file
declares. -/
theorem views_do_not_interfere (naming : Naming) :
    (∀ queries, (QueryView.ofQueries naming [] queries).map (·.undeclared) =
        queries.map fun q => (QueryView.ofQuery naming [] q).undeclared) ∧
      (∀ queries before s after,
        QueryView.shapes (QueryView.ofQueries naming [] queries) = before ++ s :: after →
          (s.declare = true ↔ s.typeName ∉ before.map (·.typeName))) ∧
      ∀ (m : Metadata) (file : String) (imports : ImportSet) (queries more : List Query)
        (types : List String), queries ≠ [] →
        (∀ name, name ∈ types ↔
          name ∈ QueryView.declaredTypes (QueryView.ofQueries naming [] queries)) →
        Code.ofQueries m naming file imports (queries ++ more) =
          Code.ofQueries m naming file imports queries ++ Code.sectionsAfter naming types more := by
  refine ⟨QueryView.map_undeclared_ofQueries naming [], ?_, ?_⟩
  · intro queries before s after h
    have hfirst : DeclaredFirst [] (QueryView.shapes (QueryView.ofQueries naming [] queries)) :=
      declaredFirst_ofQueries queries []
    rw [h] at hfirst
    rw [hfirst.declare_iff]
    exact and_iff_right List.not_mem_nil
  · intro m file imports queries more types hqueries htypes
    have hsame : ∀ name, name ∈ types ↔
        name ∈ (QueryView.ofQueries naming [] queries).foldl QueryView.declaredAfter [] := by
      intro name
      rw [htypes, QueryView.mem_declaredTypes, QueryView.mem_foldl_declaredAfter]
      exact (or_iff_right List.not_mem_nil).symm
    rw [Code.ofQueries_append m naming file imports hqueries, Code.sectionsAfter,
      Code.sectionsAfter, QueryView.ofQueries_congr hsame]

/-- A query whose rows have an anchor. -/
def getUser : Query where
  name := "getUser"
  comment := .empty
  type := .one
  sql := { text := "select id from users limit 1" }
  params := {}
  out := { list := [{ name := "id", type := "int" }], anchor := some "user" }
  position := .unknown

/-- A query whose rows are those of another. -/
def listUsers : Query :=
  { getUser with
    name := "listUsers"
    type := .many
    sql := { text := "select id from users" }
    out := { getUser.out with anchor := none, copyOf := some "user" } }

/-- A shared struct is declared once, by the first of two queries, and a file of the first goes on
with what the type name makes of the second. -/
theorem shared_views_do_not_interfere :
    (∃ s s', QueryView.shapes (QueryView.ofQueries .standard [] [getUser, listUsers]) =
        [s] ++ s' :: [] ∧ s'.typeName = "User" ∧ s'.typeName ∈ [s].map (·.typeName) ∧
          s'.declare ≠ true) ∧
      [getUser] ≠ [] ∧
      (∀ name, name ∈ ["User"] ↔
        name ∈ QueryView.declaredTypes (QueryView.ofQueries .standard [] [getUser])) ∧
      Code.ofQueries { package := "db" } .standard "user.yaml" .empty ([getUser] ++ [listUsers]) =
        Code.ofQueries { package := "db" } .standard "user.yaml" .empty [getUser] ++
          Code.sectionsAfter .standard ["User"] [listUsers] := by
  obtain ⟨-, hdeclare, hfile⟩ := views_do_not_interfere .standard
  have hshapes : QueryView.shapes (QueryView.ofQueries .standard [] [getUser, listUsers]) =
      [.ofFields .standard [] getUser.out "getUser" "row"] ++
        .ofFields .standard ["User"] listUsers.out "listUsers" "row" :: [] := by
    decide +kernel
  obtain ⟨htypes, hname, hmem⟩ :
      QueryView.declaredTypes (QueryView.ofQueries .standard [] [getUser]) = ["User"] ∧
        (ShapeView.ofFields .standard ["User"] listUsers.out "listUsers" "row").typeName = "User" ∧
        "User" ∈ [ShapeView.ofFields .standard [] getUser.out "getUser" "row"].map (·.typeName) := by
    decide +kernel
  rw [← hname] at hmem
  refine ⟨⟨_, _, hshapes, hname, hmem, fun h => (hdeclare _ _ _ _ hshapes).mp h hmem⟩,
    List.cons_ne_nil _ _, ?_, ?_⟩
  · intro name
    rw [htypes]
  · apply hfile _ _ _ _ _ _ (List.cons_ne_nil _ _)
    intro name
    rw [htypes]

end QueryBook
