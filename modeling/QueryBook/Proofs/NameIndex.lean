import QueryBook.Proofs.Grammar
import Std.Data.HashMap.Lemmas

/-!
# Indexes by name

Items that have names can be kept with an index that gives the place of each name. The index is in
step if it gives a place for a name exactly if the item at the place has it: then the names are
distinct, and what the index leads to is what a search finds. It stays in step with an item of a new
name. The queries of a document are read with such an index as they are without it.
-/

namespace QueryBook

/-! ## Items and places -/

section

variable {α : Type} {name : α → String} {items : Array α} {index : Std.HashMap String Nat}
  {a : α} {n : String}

/-- Whether an index gives a place for a name exactly if the item there has it. -/
def Places (name : α → String) (items : Array α) (index : Std.HashMap String Nat) : Prop :=
  ∀ n place, index[n]? = some place ↔ items[place]?.map name = some n

/-- Where names are distinct, an item is found under a name exactly if it is there and has it. -/
theorem find?_name_eq_some_iff {items : List α} (h : (items.map name).Nodup) :
    items.find? (name · = n) = some a ↔ a ∈ items ∧ name a = n := by
  constructor
  · intro ha
    exact ⟨List.mem_of_find?_eq_some ha, by simpa using List.find?_some ha⟩
  · rintro ⟨ha, rfl⟩
    cases hfind : items.find? (name · = name a) with
    | none => exact absurd (List.find?_eq_none.mp hfind a ha) (by simp)
    | some b =>
      have hname : name b = name a := by simpa using List.find?_some hfind
      rw [List.inj_on_of_nodup_map h (List.mem_of_find?_eq_some hfind) ha hname]

/-- The names stay distinct with a new one. -/
theorem nodup_map_append {items : List α} (h : (items.map name).Nodup)
    (hfree : name a ∉ items.map name) : ((items ++ [a]).map name).Nodup := by
  rw [List.map_append, List.map_singleton]
  exact h.append (List.nodup_singleton _) (List.disjoint_singleton.mpr hfree)

/-- The index of no items. -/
theorem places_empty : Places name #[] ∅ := fun n place => by simp

namespace Places

/-- A name is in the index exactly if an item has it. -/
theorem mem_iff (h : Places name items index) : n ∈ index ↔ n ∈ items.toList.map name := by
  rw [Std.HashMap.mem_iff_isSome_getElem?, Option.isSome_iff_exists, List.mem_map]
  simp only [h _ _, Array.mem_toList_iff, Array.mem_iff_getElem?, Option.map_eq_some_iff]
  constructor
  · rintro ⟨place, a, ha, hname⟩
    exact ⟨a, ⟨place, ha⟩, hname⟩
  · rintro ⟨a, ⟨place, ha⟩, hname⟩
    exact ⟨place, a, ha, hname⟩

/-- What the index leads to is what a search finds. -/
theorem lookup [Inhabited α] (h : Places name items index) (hd : (items.toList.map name).Nodup)
    (n : String) : index[n]?.map (fun place => items[place]!) = items.toList.find? (name · = n) := by
  ext a
  rw [find?_name_eq_some_iff hd, Array.mem_toList_iff, Array.mem_iff_getElem?,
    Option.map_eq_some_iff]
  constructor
  · rintro ⟨place, hplace, rfl⟩
    obtain ⟨a, ha, hname⟩ := Option.map_eq_some_iff.mp ((h n place).mp hplace)
    rw [getElem!_def, ha]
    exact ⟨⟨place, ha⟩, hname⟩
  · rintro ⟨⟨place, ha⟩, rfl⟩
    exact ⟨place, (h _ place).mpr (by rw [ha]; rfl), by rw [getElem!_def, ha]⟩

/-- A new name gets the place behind the items. -/
theorem push (h : Places name items index) (hfree : name a ∉ index) :
    Places name (items.push a) (index.insert (name a) items.size) := by
  intro n place
  have hold : items[place]?.map name ≠ some (name a) := fun hplace =>
    hfree (Std.HashMap.mem_iff_isSome_getElem?.mpr (by rw [(h _ _).mpr hplace]; rfl))
  rw [Std.HashMap.getElem?_insert, Array.getElem?_push]
  -- only the place behind the items is new, and only it has the new name
  by_cases hplace : place = items.size
  · subst hplace
    by_cases heq : name a = n
    · simp [heq]
    · simp [heq, h _ _]
  · by_cases heq : name a = n
    · subst heq
      simpa [hplace, Ne.symm hplace] using hold
    · simp [heq, hplace, h _ _]

end Places

end

/-! ## Queries with an index -/

instance : Inhabited Query :=
  ⟨{ name := "", comment := .empty, type := .many, sql := { text := "" }, params := {}, out := {},
     position := .unknown }⟩

/-- Queries with an index: at which place the query of a name is. -/
structure IndexedQueries where
  queries : Array Query := #[]
  index : Std.HashMap String Nat := ∅

namespace IndexedQueries

/-- Appends the query of a pair of nodes, unless its name is in the index: first its own name into
the index, then the query behind the others. -/
def readPair (t : IndexedQueries) (pair : Node × Node) : Except SchemaError IndexedQueries := do
  let (name, definition) := pair
  if name.text = "" then
    throw { problem := .queryNameMissing, position := name.position }
  if t.index.contains name.text then
    throw { problem := .queryRedefined name.text, position := name.position, query := name.text }
  let q ← Query.ofNode name definition
  return ⟨t.queries.push q, t.index.insert q.name t.queries.size⟩

/-- The queries of a document's root, read with an index. -/
def ofNode (root : Node) : Except SchemaError IndexedQueries :=
  let target := root.resolve
  match target.pairs? with
  | none => .error { problem := .queriesNotMapping target.shape, position := target.position }
  | some pairs => pairs.foldlM readPair {}

/-- The query of a name, at the place that the index gives. -/
def get? (t : IndexedQueries) (name : String) : Option Query :=
  t.index[name]?.map fun place => t.queries[place]!

/-- Queries with an index that is in step, and the queries without the index. -/
structure IsIndexOf (t : IndexedQueries) (qs : Queries) : Prop where
  queries : t.queries.toList = qs.list
  distinct : qs.names.Nodup
  places : Places Query.name t.queries t.index

/-- Queries are read with an index as without it: both fail with one error, or the index is in
step. -/
inductive Agrees : Except SchemaError IndexedQueries → Except SchemaError Queries → Prop
  | error (e : SchemaError) : Agrees (.error e) (.error e)
  | ok {t : IndexedQueries} {qs : Queries} (h : t.IsIndexOf qs) : Agrees (.ok t) (.ok qs)

/-- Two readings that agree, continued by readings that do. -/
theorem Agrees.bind {x : Except SchemaError IndexedQueries} {y : Except SchemaError Queries}
    {f : IndexedQueries → Except SchemaError IndexedQueries}
    {g : Queries → Except SchemaError Queries} (h : Agrees x y)
    (hnext : ∀ t qs, t.IsIndexOf qs → Agrees (f t) (g qs)) : Agrees (x >>= f) (y >>= g) := by
  cases h with
  | error e => exact .error e
  | ok h => exact hnext _ _ h

variable {t : IndexedQueries} {qs : Queries}

/-- One pair: the name is looked up in the index, and the query put in both. -/
theorem IsIndexOf.readPair (h : t.IsIndexOf qs) (p : Node × Node) :
    Agrees (t.readPair p) (qs.readPair p) := by
  obtain ⟨name, definition⟩ := p
  have htaken : t.index.contains name.text = (qs.get? name.text).isSome := by
    rw [Bool.eq_iff_iff, Grammar.isSome_get?, ← Std.HashMap.mem_iff_contains, h.places.mem_iff,
      h.queries]
    rfl
  unfold IndexedQueries.readPair Queries.readPair
  by_cases hempty : name.text = ""
  · simp only [hempty, if_true]
    exact .error _
  · cases hname : (qs.get? name.text).isSome with
    | true =>
      rw [hname] at htaken
      simp only [hempty, htaken, hname, if_false, if_true]
      exact .error _
    | false =>
      rw [hname] at htaken
      simp only [hempty, htaken, hname, if_false, Bool.false_eq_true]
      cases hquery : Query.ofNode name definition with
      | error e => exact .error e
      | ok q =>
        have hdescribes := (Grammar.queryOfNode_eq_ok (p := (name, definition))).1 hquery
        have hq : q.name = name.text := hdescribes.2.name
        have hfree : q.name ∉ t.index := by
          rw [hq, Std.HashMap.mem_iff_contains, htaken]
          exact Bool.false_ne_true
        refine .ok ⟨by simp [h.queries], ?_, h.places.push hfree⟩
        rw [h.places.mem_iff, h.queries] at hfree
        exact nodup_map_append h.distinct hfree

/-- All pairs, in order. -/
theorem IsIndexOf.foldlM_readPair (h : t.IsIndexOf qs) (pairs : List (Node × Node)) :
    Agrees (pairs.foldlM IndexedQueries.readPair t) (pairs.foldlM Queries.readPair qs) := by
  induction pairs generalizing t qs with
  | nil => exact .ok h
  | cons p pairs ih =>
    rw [List.foldlM_cons, List.foldlM_cons]
    exact (h.readPair p).bind fun _ _ hstep => ih hstep

/-- The root of a document. -/
theorem agrees_ofNode (root : Node) : Agrees (ofNode root) (Queries.ofNode root) := by
  have hempty : IsIndexOf {} .empty := ⟨rfl, List.nodup_nil, places_empty⟩
  unfold ofNode Queries.ofNode
  dsimp only
  cases root.resolve.pairs? with
  | none => exact .error _
  | some pairs => exact hempty.foldlM_readPair pairs

/-- A query is looked up through the index as it is found by a search. -/
theorem IsIndexOf.get?_eq (h : t.IsIndexOf qs) (name : String) : t.get? name = qs.get? name := by
  have hdistinct : (t.queries.toList.map (·.name)).Nodup := h.queries ▸ h.distinct
  rw [IndexedQueries.get?, h.places.lookup hdistinct, h.queries]
  rfl

end IndexedQueries

/-- **Queries and index in step.** A document is read with an index exactly as without it: either
fails exactly if the other does, with the same error. The queries are the same in order, the index
gives the place of each name and no other, and a query is looked up with the same result. -/
theorem Queries.answers_as_indexed (root : Node) :
    (∀ e, Queries.ofNode root = .error e ↔ IndexedQueries.ofNode root = .error e) ∧
      ∀ qs, Queries.ofNode root = .ok qs → ∃ t, IndexedQueries.ofNode root = .ok t ∧
        t.IsIndexOf qs ∧ ∀ name, t.get? name = qs.get? name := by
  have hagrees := IndexedQueries.agrees_ofNode root
  generalize Queries.ofNode root = plain at hagrees ⊢
  generalize IndexedQueries.ofNode root = indexed at hagrees ⊢
  cases hagrees with
  | error e => exact ⟨fun e' => by rw [Except.error.injEq, Except.error.injEq], nofun⟩
  | ok h =>
    refine ⟨fun _ => iff_of_false nofun nofun, ?_⟩
    rintro _ ⟨⟩
    exact ⟨_, rfl, h, h.get?_eq⟩

end QueryBook
