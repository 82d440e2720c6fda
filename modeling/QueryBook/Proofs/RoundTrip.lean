import QueryBook.Proofs.ReadBack

/-!
# The canonical document and its queries

Reading the canonical document of queries gives the queries again, positions aside, exactly if the
document keeps them.
-/

namespace QueryBook

open Yaml
open Grammar

namespace Outline

variable {anchors : Anchors} {seen : List String} {k line : Nat}

/-! ## Aliases that are known -/

/-- Whether the names of anchors are among those seen so far. -/
def Named (anchors : Anchors) (seen : List String) : Prop :=
  ∀ name, (anchors.lookup name).isSome → ((numbered seen).lookup name).isSome

/-- The name of a block that is defined is seen. -/
theorem Named.define (h : Named anchors seen) (fs : Fields) :
    Named (fs.define anchors) (fs.defines.toList ++ seen) := by
  intro name
  rw [Fields.define]
  cases fs.defines with
  | none => exact h name
  | some name' =>
    show _ → (List.lookup name ((name', seen.length + 1) :: numbered seen)).isSome
    rw [List.lookup_cons, List.lookup_cons]
    cases name == name' with
    | true => exact fun _ => rfl
    | false => exact h name

variable {next : Position} {after : Nat} {h : Heading} {rest inner : Outline}

/-- A pair with a value has events if the value has one and what follows has some. -/
theorem isSome_events_leaf {v : Leaf}
    (hv : (v.event k (h.valuePosition k line) (rest.gap after) seen).isSome)
    (hrest : (rest.events k (line + h.height + 1 + v.height) next after seen).isSome) :
    ((leaf h v rest).events k line next after seen).isSome := by
  obtain ⟨e, he⟩ := Option.isSome_iff_exists.mp hv
  obtain ⟨es, hes⟩ := Option.isSome_iff_exists.mp hrest
  rw [events, he, Option.bind_some, hes]
  rfl

/-- So does a pair with a mapping. -/
theorem isSome_events_nested {anchor : Option String}
    (hinner : (inner.events (k + 2) (line + h.height + 1)
      (rest.start k (line + h.height + 1 + inner.height) next) (rest.gap after)
      (anchor.toList ++ seen)).isSome)
    (hrest : (rest.events k (line + h.height + 1 + inner.height) next after
      (seenBehind seen anchor inner)).isSome) :
    ((nested h anchor inner rest).events k line next after seen).isSome := by
  obtain ⟨es, hes⟩ := Option.isSome_iff_exists.mp hinner
  obtain ⟨es', hes'⟩ := Option.isSome_iff_exists.mp hrest
  rw [events, hes, Option.bind_some, hes']
  rfl

/-- Fields have events. -/
theorem isSome_events_ofFields (fs : List Field) :
    ((ofFields fs).events k line next after seen).isSome := by
  induction fs generalizing line with
  | nil => rfl
  | cons f fs ih => exact isSome_events_leaf rfl ih

/-- A block that is kept has events if what follows has some. -/
theorem isSome_events_ofBlock {key : String} {fs : Fields} (hnamed : Named anchors seen)
    (hkept : fs.Kept key anchors)
    (hrest : ∀ line, (rest.events k line next after (fs.defines.toList ++ seen)).isSome) :
    ((ofBlock key fs rest).events k line next after seen).isSome := by
  unfold ofBlock
  cases hempty : fs.isEmpty with
  | true =>
    have hdefines : fs.defines = none := by rw [Fields.defines, hempty]; rfl
    rw [hdefines] at hrest
    exact hrest line
  | false =>
    cases hcopy : fs.copyOf with
    | some name =>
      have hdefines : fs.defines = none := by simp [Fields.defines, hcopy]
      rw [hdefines] at hrest
      refine isSome_events_leaf ?_ (hrest _)
      have hlookup := ((Fields.kept_of_copy hempty hcopy).mp hkept).2
      rw [Leaf.event, Option.isSome_map]
      exact hnamed name (by rw [hlookup]; rfl)
    | none =>
      have hdefines : fs.defines = fs.anchor := by simp [Fields.defines, hempty, hcopy]
      refine isSome_events_nested (isSome_events_ofFields _) ?_
      rw [seenBehind, anchors_ofFields, ← hdefines]
      exact hrest _

/-- Queries that are kept have events. -/
theorem isSome_events_ofQueries {qs : List Query} {blanks : Nat} (hnamed : Named anchors seen)
    (hkept : Queries.KeptFrom anchors qs) :
    ((ofQueries blanks qs).events k line next after seen).isSome := by
  induction qs generalizing blanks line anchors seen with
  | nil => rfl
  | cons q qs ih =>
    refine isSome_events_nested ?_ ?_
    · refine isSome_events_leaf rfl (isSome_events_leaf ?_ ?_)
      · unfold ofSql
        cases q.sql.style <;> rfl
      · exact isSome_events_ofBlock hnamed hkept.1.params fun _ =>
          isSome_events_ofBlock (hnamed.define _) hkept.1.out fun _ => rfl
    · rw [seenBehind_ofQuery]
      exact ih ((hnamed.define _).define _) hkept.2

/-! ## Documents -/

/-- Pairs that are read as queries are definitions that describe queries equal to them, positions
aside. -/
theorem forall₂_readsQuery_iff {ps : List (Node × Node)} {qs : List Query} :
    List.Forall₂ ReadsQuery ps qs ↔ (∀ p ∈ ps, IsDefinition p.2) ∧
      ∃ qs', List.Forall₂ Describes ps qs' ∧ qs'.map (·.unplaced) = qs.map (·.unplaced) := by
  constructor
  · intro h
    induction h with
    | nil => exact ⟨fun _ hp => absurd hp List.not_mem_nil, [], .nil, rfl⟩
    | cons hp _ ih =>
      obtain ⟨q', hdefinition, hdescribes, heq⟩ := hp
      obtain ⟨hall, qs', hqs', heqs⟩ := ih
      refine ⟨List.forall_mem_cons.mpr ⟨hdefinition, hall⟩, q' :: qs', .cons hdescribes hqs', ?_⟩
      rw [List.map_cons, List.map_cons, heq, heqs]
  · rintro ⟨hall, qs', hqs', heqs⟩
    induction hqs' generalizing qs with
    | nil =>
      rw [List.map_nil, eq_comm, List.map_eq_nil_iff] at heqs
      rw [heqs]
      exact .nil
    | cons hdescribes _ ih =>
      rw [List.forall_mem_cons] at hall
      cases qs with
      | nil => cases heqs
      | cons q qs =>
        rw [List.map_cons, List.map_cons, List.cons.injEq] at heqs
        exact .cons ⟨_, hall.1, hdescribes, heqs.1⟩ (ih hall.2 heqs.2)

end Outline

/-- Whether queries are read back from their canonical document, positions aside. -/
def Queries.ReadsBack [Diagnosis] (qs : Queries) : Prop :=
  ∃ qs', Queries.parse qs.toYaml = .ok qs' ∧ qs'.unplaced = qs.unplaced

namespace Outline

/-- A document whose root is the mapping of pairs is read as queries if the pairs are. -/
theorem ofNode_iff {info : NodeInfo} {ps : List (Node × Node)} {qs : Queries}
    (hnames : qs.names.Nodup) (hnamed : ∀ name ∈ qs.names, name ≠ "") :
    (∃ qs', Queries.ofNode (.mapping info ps) = .ok qs' ∧ qs'.unplaced = qs.unplaced) ↔
      List.Forall₂ ReadsQuery ps qs.list := by
  rw [forall₂_readsQuery_iff]
  simp only [queriesOfNode_eq_ok]
  constructor
  · rintro ⟨qs', ⟨hdocument, hdescribes⟩, heq⟩
    exact ⟨hdocument.definitions, qs'.list, hdescribes, congrArg Queries.list heq⟩
  · rintro ⟨hall, qs', hdescribes, heq⟩
    have hkeys : keyTexts ps = qs.names := by
      have hname : ∀ l : List Query, (l.map (·.unplaced)).map (·.name) = l.map (·.name) := by
        intro l
        rw [List.map_map]
        rfl
      rw [← names_eq_keyTexts hdescribes, Queries.names, ← hname qs', heq, hname]
    refine ⟨⟨qs'⟩, ⟨⟨rfl, ⟨fun p hp => ?_, ?_⟩, hall⟩, hdescribes⟩, congrArg Queries.mk heq⟩
    · refine hnamed p.1.text ?_
      rw [← hkeys]
      exact List.mem_map_of_mem hp
    · show (keyTexts ps).Nodup
      rw [hkeys]
      exact hnames

/-- The comments of the outline of a block and of what follows it are tidy. -/
theorem isTidy_ofBlock {key : String} {fs : Fields} (hfs : fs.IsSound) {rest : Outline}
    (hrest : rest.IsTidy) : (ofBlock key fs rest).IsTidy := by
  have hfields : ∀ {list : List Field}, (∀ f ∈ list, f.IsSound) → (ofFields list).IsTidy := by
    intro list hlist
    induction list with
    | nil => trivial
    | cons f list ih =>
      rw [List.forall_mem_cons] at hlist
      exact ⟨hlist.1.comment, ih hlist.2⟩
  unfold ofBlock
  split
  · exact hrest
  · split
    · exact ⟨hfs.comment, hrest⟩
    · exact ⟨hfs.comment, hfields hfs.fields, hrest⟩

/-- The comments of the outline of queries are tidy. -/
theorem isTidy_ofQueries {qs : List Query} (hqs : ∀ q ∈ qs, q.IsSound) (blanks : Nat) :
    (ofQueries blanks qs).IsTidy := by
  induction qs generalizing blanks with
  | nil => trivial
  | cons q qs ih =>
    rw [List.forall_mem_cons] at hqs
    refine ⟨hqs.1.comment, ⟨Comment.isTidy_empty, Comment.isTidy_empty, ?_⟩, ih hqs.2 1⟩
    exact isTidy_ofBlock hqs.1.params (isTidy_ofBlock hqs.1.out trivial)

end Outline

namespace Queries

open Outline

/-- What is read from a document are the queries of its root. -/
theorem parse_eq_ok_iff [Diagnosis] {source : String} {qs : Queries} :
    Queries.parse source = .ok qs ↔
      ((Document.read source).toOption = some none ∧ qs = .empty) ∨
        ∃ root, (Document.read source).toOption = some (some root) ∧
          Queries.ofNode root = .ok qs := by
  simp only [← Reading.eq_ok_iff_toOption]
  show Except.bind _ _ = _ ↔ _
  rw [Reading.bind_eq_ok]
  constructor
  · rintro ⟨none | root, hread, hqs⟩
    · cases hqs
      exact .inl ⟨hread, rfl⟩
    · exact .inr ⟨root, hread, hqs⟩
  · rintro (⟨hread, rfl⟩ | ⟨root, hread, hqs⟩)
    · exact ⟨none, hread, rfl⟩
    · exact ⟨some root, hread, hqs⟩

theorem parse_empty [Diagnosis] : Queries.parse "" = .ok .empty := by
  have hevents : Yaml.events? (Yaml.tokens "".toList) = some none := by decide +kernel
  have hread : Document.read "" = .ok none := by
    unfold Document.read
    dsimp only
    rw [hevents]
  rw [parse_eq_ok_iff, hread]
  exact .inl ⟨rfl, rfl⟩

/-- What is read from the document of an outline are the queries of its mapping. -/
theorem parse_lines [Diagnosis] {o : Outline} (ho : o.Legible 0) (hne : o ≠ done) {source : String}
    (hsource : source.toList = Text.unlines (o.lines 0)) {qs : Queries} :
    Queries.parse source = .ok qs ↔
      ∃ es, o.events 0 1 o.finish 0 [] = some es ∧
        ∃ r, o.pairs (o.margin es) 0 1 0 [] [] = some r ∧
          Queries.ofNode (o.mapping 0 1 none r.1) = .ok qs := by
  rw [parse_eq_ok_iff, read_lines ho hne hsource]
  simp only [Option.bind_eq_some_iff, Option.map_eq_some_iff]
  constructor
  · rintro (⟨⟨es, -, r, -, ⟨⟩⟩, -⟩ | ⟨root, ⟨es, hes, r, hr, ⟨⟩⟩, hqs⟩)
    exact ⟨es, hes, r, hr, hqs⟩
  · rintro ⟨es, hes, r, hr, hqs⟩
    exact .inr ⟨_, ⟨es, hes, r, hr, rfl⟩, hqs⟩

/-- Sound queries with a legible canonical document are read back from it exactly if it keeps them.
-/
theorem readsBack_iff_kept [Diagnosis] {qs : Queries} (hqs : ∀ q ∈ qs.list, q.IsSound)
    (hnames : qs.names.Nodup) (hlegible : (ofQueries 0 qs.list).Legible 0) :
    qs.ReadsBack ↔ qs.Kept := by
  by_cases hempty : qs.list = []
  · obtain rfl : qs = ⟨[]⟩ := by rw [← hempty]
    exact iff_of_true ⟨.empty, parse_empty, rfl⟩ trivial
  have hne : ofQueries 0 qs.list ≠ done := by
    cases hlist : qs.list with
    | nil => exact absurd hlist hempty
    | cons q list => exact nofun
  have hnamed : ∀ name ∈ qs.names, name ≠ "" := by
    intro name hname
    obtain ⟨q, hq, rfl⟩ := List.mem_map.mp hname
    exact (hqs q hq).name
  have htidy := isTidy_ofQueries hqs 0
  constructor
  · rintro ⟨qs', hparse, heq⟩
    obtain ⟨es, hes, r, hr, hqs'⟩ := (parse_lines hlegible hne (toList_queries qs.list)).mp hparse
    have hfound := found_margin hlegible htidy hes
    rw [Kept, ← pairs_ofQueries hqs hfound Resolves.nil]
    exact ⟨r, hr, (ofNode_iff hnames hnamed).mp ⟨qs', hqs', heq⟩⟩
  · intro hkept
    have hnamed' : Named [] [] := by
      intro name h
      cases h
    obtain ⟨es, hes⟩ := Option.isSome_iff_exists.mp (isSome_events_ofQueries hnamed' hkept)
    have hfound := found_margin hlegible htidy hes
    rw [Kept, ← pairs_ofQueries hqs hfound Resolves.nil] at hkept
    obtain ⟨r, hr, hreads⟩ := hkept
    obtain ⟨qs', hqs', heq⟩ := (ofNode_iff hnames hnamed).mpr hreads
    exact ⟨qs', (parse_lines hlegible hne (toList_queries qs.list)).mpr ⟨es, hes, r, hr, hqs'⟩, heq⟩

end Queries

end QueryBook
