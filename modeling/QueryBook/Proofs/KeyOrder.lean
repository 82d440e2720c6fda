import QueryBook.Proofs.FirstError
import Mathlib.Data.List.Perm.Basic

/-!
# The order of keys

The keys of a query are read one after the other, but where no key comes twice their order makes no
difference: each changes a part of its own, and what the parts have to do with each other is looked
at when all are read. The order of the queries in a document is kept, and nothing else depends on
it.
-/

namespace QueryBook

/-- Two mappings, aliases followed, that have the same pairs in any order. -/
structure Node.Permutes (n n' : Node) : Prop where
  mapping : n.resolve.shape = .mapping
  mapping' : n'.resolve.shape = .mapping
  members : n.members.Perm n'.members

theorem Node.Permutes.symm {n n' : Node} (h : n.Permutes n') : n'.Permutes n :=
  ⟨h.mapping', h.mapping, h.members.symm⟩

namespace Grammar

/-! ## Pairs in another order -/

variable {pairs pairs' : List (Node × Node)} {n n' name : Node} {q : Query}

/-- Where keys are distinct, at most one pair is under each. -/
theorem length_pairsUnder_le_one (h : (keyTexts pairs).Nodup) (key : String) :
    (pairsUnder key pairs).length ≤ 1 := by
  have hkeys : keyTexts (pairsUnder key pairs) = List.replicate (pairsUnder key pairs).length key := by
    rw [List.eq_replicate_iff]
    refine ⟨List.length_map _, fun text htext => ?_⟩
    obtain ⟨p, hp, rfl⟩ := List.mem_map.1 htext
    exact (mem_pairsUnder.1 hp).2
  have hsub : (keyTexts (pairsUnder key pairs)).Sublist (keyTexts pairs) :=
    List.filter_sublist.map _
  have hnodup := h.sublist hsub
  rwa [hkeys, List.nodup_replicate] at hnodup

/-- The pairs under a key are the same in any order of distinct keys. -/
theorem pairsUnder_perm (h : pairs.Perm pairs') (hdistinct : (keyTexts pairs).Nodup)
    (key : String) : pairsUnder key pairs = pairsUnder key pairs' := by
  have hperm : (pairsUnder key pairs).Perm (pairsUnder key pairs') := h.filter _
  have hle := length_pairsUnder_le_one hdistinct key
  generalize pairsUnder key pairs = under at *
  match under, hle with
  | [], _ => exact hperm.nil_eq
  | [p], _ => exact hperm.singleton_eq

/-- So is the pair that counts. -/
theorem lastUnder_perm (h : pairs.Perm pairs') (hdistinct : (keyTexts pairs).Nodup)
    (key : String) : lastUnder key pairs = lastUnder key pairs' := by
  rw [lastUnder, pairsUnder_perm h hdistinct, lastUnder]

/-! ## Queries -/

/-- A definition stays one if it has the same pairs and the same of them count. -/
theorem IsDefinition.of_same (h : IsDefinition n) (hshape : n'.resolve.shape = .mapping)
    (hmembers : ∀ p ∈ n'.members, p ∈ n.members)
    (hlast : ∀ key, lastUnder key n'.members = lastUnder key n.members) : IsDefinition n' where
  mapping := hshape
  entries := fun p hp => h.entries p (hmembers p hp)
  hasSql := by
    intro hnil
    have hsql : lastUnder "sql" n.members = none := by
      rw [← hlast, lastUnder, hnil]
      rfl
    exact h.hasSql (List.getLast?_eq_none_iff.1 hsql)
  shape := by
    intro type htype
    unfold IsTypeUnder at htype
    rw [hlast] at htype
    have hfits := h.shape type htype
    unfold blockUnder at hfits ⊢
    rwa [hlast]

/-- What a definition describes depends on the pairs that count. -/
theorem Describes.of_same (h : Describes (name, n) q)
    (hlast : ∀ key, lastUnder key n'.members = lastUnder key n.members) :
    Describes (name, n') q where
  name := h.name
  comment := h.comment
  position := h.position
  type := by
    have htype := h.type
    unfold IsTypeUnder at htype ⊢
    dsimp only
    rwa [hlast]
  sql := by
    have hsql := h.sql
    dsimp only at hsql ⊢
    rwa [hlast]
  params := by
    have hparams := h.params
    unfold blockUnder at hparams ⊢
    dsimp only
    rwa [hlast]
  out := by
    have hout := h.out
    unfold blockUnder at hout ⊢
    dsimp only
    rwa [hlast]

/-- A definition with distinct keys is read in one order as what it is read as in another. -/
theorem queryOfNode_of_permutes (h : n.Permutes n') (hdistinct : (keyTexts n.members).Nodup)
    (hread : Query.ofNode name n = .ok q) : Query.ofNode name n' = .ok q := by
  have hlast (key : String) : lastUnder key n'.members = lastUnder key n.members :=
    (lastUnder_perm h.members hdistinct key).symm
  obtain ⟨hdefinition, hdescribes⟩ := (queryOfNode_eq_ok (p := (name, n))).1 hread
  refine (queryOfNode_eq_ok (p := (name, n'))).2 ⟨?_, hdescribes.of_same hlast⟩
  exact hdefinition.of_same h.mapping' (fun p hp => h.members.mem_iff.2 hp) hlast

/-! ## Documents -/

/-- Where names are distinct, a query is found under a name exactly if it is listed and has it. -/
theorem get?_eq_some_iff {qs : Queries} (h : qs.names.Nodup) {name : String} :
    qs.get? name = some q ↔ q ∈ qs.list ∧ q.name = name := by
  constructor
  · intro hq
    exact ⟨List.mem_of_find?_eq_some hq, by simpa using List.find?_some hq⟩
  · rintro ⟨hq, rfl⟩
    exact get?_name_of_nodup h hq

/-- Where names are distinct, the same queries are found in any order. -/
theorem get?_perm {qs qs' : Queries} (h : qs.names.Nodup) (hperm : qs'.list.Perm qs.list)
    (name : String) : qs'.get? name = qs.get? name := by
  have h' : qs'.names.Nodup := (hperm.map _).nodup_iff.2 h
  ext q
  rw [get?_eq_some_iff h, get?_eq_some_iff h', hperm.mem_iff]

/-- A document in another order is one. -/
theorem IsDocument.permutes (h : IsDocument n) (hperm : n.Permutes n') : IsDocument n' where
  mapping := hperm.mapping'
  names := {
    named := fun p hp => h.names.named p (hperm.members.mem_iff.2 hp)
    distinct := (hperm.members.map _).nodup_iff.1 h.names.distinct }
  definitions := fun p hp => h.definitions p (hperm.members.mem_iff.2 hp)

/-- What queries are among those of a document: the queries of its pairs, in their order. -/
structure Reorders (root' : Node) (qs qs' : Queries) : Prop where
  queries : qs'.list.Perm qs.list
  /-- Each is read from the pair in its place. -/
  order : List.Forall₂ (fun p q => Query.ofNode p.1 p.2 = .ok q) root'.members qs'.list
  get : ∀ name, qs'.get? name = qs.get? name

/-- A document in another order is read as its queries in that order. -/
theorem exists_reorders {root root' : Node} {qs : Queries} (h : root.Permutes root')
    (hread : Queries.ofNode root = .ok qs) :
    ∃ qs', Queries.ofNode root' = .ok qs' ∧ Reorders root' qs qs' := by
  obtain ⟨hdocument, hdescribes⟩ := queriesOfNode_eq_ok.1 hread
  obtain ⟨list, hlist, hperm⟩ := List.perm_comp_forall₂ h.members.symm hdescribes
  have hdocument' := hdocument.permutes h
  refine ⟨⟨list⟩, queriesOfNode_eq_ok.2 ⟨hdocument', hlist⟩, hperm, ?_,
    get?_perm (nodup_names_of_ofNode hread) hperm⟩
  have hboth := (List.forall₂_and_left root'.members list).2
    ⟨hdocument'.definitions, hlist⟩
  exact hboth.imp fun _ _ hq => queryOfNode_eq_ok.2 hq

/-- **The order of keys does not matter.** A definition whose keys are distinct is read in every
order of its pairs exactly if it is read in one, and as the same query. The pairs of a document that
is read can be put in every order; its queries are then the same in that order, and each is found
under its name as before. -/
theorem order_of_keys_irrelevant :
    (∀ name definition definition' : Node, definition.Permutes definition' →
      (keyTexts definition.members).Nodup →
        ∀ q, Query.ofNode name definition = .ok q ↔ Query.ofNode name definition' = .ok q) ∧
      ∀ (root root' : Node) (qs : Queries), root.Permutes root' → Queries.ofNode root = .ok qs →
        ∃ qs', Queries.ofNode root' = .ok qs' ∧ Reorders root' qs qs' := by
  refine ⟨?_, fun root root' qs h hread => exists_reorders h hread⟩
  intro name definition definition' h hdistinct q
  constructor
  · exact queryOfNode_of_permutes h hdistinct
  · have hdistinct' : (keyTexts definition'.members).Nodup :=
      (h.members.map _).nodup_iff.1 hdistinct
    exact queryOfNode_of_permutes h.symm hdistinct'

/-- The key of a type with its value. -/
def typePair : Node × Node := (plainNode 2 3 "type", plainNode 2 9 "exec")

/-- The key of SQL with its value. -/
def sqlPair : Node × Node := (plainNode 3 3 "sql", plainNode 3 8 "x")

/-- A definition with two keys. -/
def twoKeys : Node := .mapping { position := ⟨2, 7⟩ } [typePair, sqlPair]

/-- The keys the other way round, behind an alias. -/
def twoKeysReversed : Node :=
  .reference { position := ⟨1, 4⟩ } (.mapping { position := ⟨2, 6⟩ } [sqlPair, typePair])

/-- A document with two queries. -/
def twoQueries : Node :=
  .mapping { position := ⟨1, 2⟩ } [(plainNode 1 1 "a", twoKeys), (plainNode 4 1 "b", twoKeys)]

/-- The queries the other way round. -/
def twoQueriesReversed : Node :=
  .mapping { position := ⟨1, 2⟩ } [(plainNode 4 1 "b", twoKeys), (plainNode 1 1 "a", twoKeys)]

/-- Two keys and two queries in both orders. -/
theorem order_of_two_keys_irrelevant :
    twoKeys.Permutes twoKeysReversed ∧ (keyTexts twoKeys.members).Nodup ∧
      (∃ q, Query.ofNode (plainNode 1 1 "a") twoKeys = .ok q ∧
        Query.ofNode (plainNode 1 1 "a") twoKeysReversed = .ok q) ∧
      twoQueries.Permutes twoQueriesReversed ∧
      ∃ qs qs', Queries.ofNode twoQueries = .ok qs ∧ Queries.ofNode twoQueriesReversed = .ok qs' ∧
        Reorders twoQueriesReversed qs qs' := by
  have hkeys : twoKeys.Permutes twoKeysReversed := ⟨rfl, rfl, .swap _ _ _⟩
  have hqueries : twoQueries.Permutes twoQueriesReversed := ⟨rfl, rfl, .swap _ _ _⟩
  have hdistinct : (keyTexts twoKeys.members).Nodup := by decide +kernel
  obtain ⟨q, hq⟩ : ∃ q, Query.ofNode (plainNode 1 1 "a") twoKeys = .ok q :=
    Reading.exists_eq_ok_iff.2 (by decide +kernel)
  obtain ⟨qs, hqs⟩ : ∃ qs, Queries.ofNode twoQueries = .ok qs :=
    Reading.exists_eq_ok_iff.2 (by decide +kernel)
  have horder := order_of_keys_irrelevant
  obtain ⟨qs', hqs', hreorders⟩ := horder.2 _ _ _ hqueries hqs
  exact ⟨hkeys, hdistinct, ⟨q, hq, (horder.1 _ _ _ hkeys hdistinct q).1 hq⟩, hqueries, qs, qs', hqs,
    hqs', hreorders⟩

end Grammar

end QueryBook
