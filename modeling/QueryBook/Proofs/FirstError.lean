import QueryBook.Proofs.Grammar

/-!
# The first error of a document

Reading a document stops at the first entry of its root that is wrong. The main statement,
`first_error_located`, says what the error is then: it is there whatever follows that entry, it
names the query of the entry, and it is placed at the entry's key or inside its value.
-/

namespace QueryBook

/-! ## Nodes inside a node -/

namespace Node

/-- A node has another inside: itself, a part of it, or what an alias in it leads to. -/
inductive Holds : Node → Node → Prop
  | self (n : Node) : Holds n n
  | key {info : NodeInfo} {pairs : List (Node × Node)} {p : Node × Node} {m : Node}
    (mem : p ∈ pairs) (inside : Holds p.1 m) : Holds (.mapping info pairs) m
  | value {info : NodeInfo} {pairs : List (Node × Node)} {p : Node × Node} {m : Node}
    (mem : p ∈ pairs) (inside : Holds p.2 m) : Holds (.mapping info pairs) m
  | item {info : NodeInfo} {items : List Node} {n m : Node}
    (mem : n ∈ items) (inside : Holds n m) : Holds (.sequence info items) m
  | target {info : NodeInfo} {n m : Node} (inside : Holds n m) : Holds (.reference info n) m

variable {n m : Node}

/-- What is inside the node that aliases lead to is inside the node. -/
theorem Holds.of_resolve (h : n.resolve.Holds m) : n.Holds m := by
  induction n using resolve.induct with
  | case1 info target ih => exact .target (ih h)
  | case2 n hn =>
    cases n with
    | reference info target => exact absurd rfl (hn info target)
    | scalar | mapping | sequence => exact h

/-- The node that aliases lead to is inside the node. -/
theorem holds_resolve (n : Node) : n.Holds n.resolve := Holds.of_resolve (.self _)

/-- A mapping is what its members are in. -/
theorem resolve_eq_mapping {p : Node × Node} (h : p ∈ n.members) :
    ∃ info pairs, n.resolve = .mapping info pairs ∧ p ∈ pairs := by
  unfold members at h
  cases hn : n.resolve with
  | mapping info pairs =>
    rw [hn] at h
    exact ⟨info, pairs, rfl, h⟩
  | scalar | sequence | reference =>
    rw [hn] at h
    cases h

/-- What is inside the key of a member is inside the node. -/
theorem Holds.of_member_key {p : Node × Node} (hp : p ∈ n.members) (h : p.1.Holds m) :
    n.Holds m := by
  obtain ⟨info, pairs, hn, hmem⟩ := resolve_eq_mapping hp
  refine .of_resolve ?_
  rw [hn]
  exact .key hmem h

/-- What is inside the value of a member is inside the node. -/
theorem Holds.of_member_value {p : Node × Node} (hp : p ∈ n.members) (h : p.2.Holds m) :
    n.Holds m := by
  obtain ⟨info, pairs, hn, hmem⟩ := resolve_eq_mapping hp
  refine .of_resolve ?_
  rw [hn]
  exact .value hmem h

end Node

namespace Grammar

/-! ## Where errors are -/

/-- A position is that of a node inside a node. -/
def IsWithin (position : Position) (n : Node) : Prop := ∃ m, n.Holds m ∧ position = m.position

variable {n name : Node} {p : Node × Node} {position : Position} {e : SchemaError}

/-- The node itself, aliases followed, is within a node. -/
theorem isWithin_resolve (n : Node) : IsWithin n.resolve.position n :=
  ⟨n.resolve, n.holds_resolve, rfl⟩

/-- What is within the key of a member is within the node. -/
theorem IsWithin.of_key (hp : p ∈ n.members) (h : IsWithin position p.1) : IsWithin position n := by
  obtain ⟨m, hm, rfl⟩ := h
  exact ⟨m, hm.of_member_key hp, rfl⟩

/-- What is within the value of a member is within the node. -/
theorem IsWithin.of_value (hp : p ∈ n.members) (h : IsWithin position p.2) :
    IsWithin position n := by
  obtain ⟨m, hm, rfl⟩ := h
  exact ⟨m, hm.of_member_value hp, rfl⟩

/-- A position at the key of a pair or within its value. -/
def IsAt (position : Position) (p : Node × Node) : Prop :=
  position = p.1.position ∨ IsWithin position p.2

/-- What is at a member is within the node. -/
theorem IsAt.isWithin (hp : p ∈ n.members) (h : IsAt position p) : IsWithin position n := by
  rcases h with h | h
  · exact .of_key hp ⟨p.1, .self _, h⟩
  · exact .of_value hp h

/-! ## Fields and SQL -/

/-- A field that cannot be read is wrong at its name or its type. -/
theorem isAt_of_readField (h : Fields.readField p.1 p.2 = .error e) : IsAt e.position p := by
  unfold Fields.readField at h
  dsimp only at h
  split at h
  · cases h
    exact .inl rfl
  · split at h
    · cases h
      exact .inr (isWithin_resolve p.2)
    · split at h
      · cases h
        exact .inr (isWithin_resolve p.2)
      · cases h

/-- A pair that cannot be appended to a block is wrong at its name or its type. -/
theorem isAt_of_readPair {fs : Fields} (h : fs.readPair p = .error e) : IsAt e.position p := by
  rcases Reading.bind_eq_error.1 h with h | ⟨f, hf, h⟩
  · exact isAt_of_readField h
  · -- the name is taken, and a field stands where its name does
    obtain ⟨-, -, rfl⟩ := readField_eq_ok.1 hf
    unfold Fields.push at h
    split at h
    · cases h
      exact .inl rfl
    · cases h

/-- A block that cannot be read is wrong within its node. -/
theorem isWithin_of_fields (h : Fields.ofNode n = .error e) : IsWithin e.position n := by
  unfold Fields.ofNode at h
  dsimp only at h
  cases hpairs : n.resolve.pairs? with
  | none =>
    rw [hpairs] at h
    cases h
    exact isWithin_resolve n
  | some pairs =>
    rw [hpairs] at h
    obtain ⟨-, rfl⟩ := Node.pairs?_resolve_eq_some.1 hpairs
    obtain ⟨before, p, after, fs, hmembers, -, hp⟩ := Reading.foldlM_eq_error.1 h
    have hmem : p ∈ n.members := by simp [hmembers]
    exact (isAt_of_readPair hp).isWithin hmem

/-- SQL that cannot be read is wrong within its node. -/
theorem isWithin_of_sql (h : Sql.ofNode n = .error e) : IsWithin e.position n := by
  unfold Sql.ofNode at h
  dsimp only at h
  split at h
  · cases h
    exact isWithin_resolve n
  · split at h
    · cases h
      exact isWithin_resolve n
    · cases h

/-! ## Queries -/

/-- A key of a query that cannot be read is wrong at the key or its value. -/
theorem isAt_of_read {d : Query.Draft} (h : d.read p.1 p.2 = .error e) : IsAt e.position p := by
  unfold Query.Draft.read at h
  split at h
  · split at h
    · cases h
    · cases h
      exact .inr ⟨p.2, .self _, rfl⟩
  · split at h
    · exact .inr (isWithin_of_sql (Reading.map_eq_error.1 h))
    · split at h
      · exact .inr (isWithin_of_fields (Reading.map_eq_error.1 h))
      · split at h
        · exact .inr (isWithin_of_fields (Reading.map_eq_error.1 h))
        · cases h
          exact .inl rfl

/-- The keys of a query that cannot be read are wrong at one of them. -/
theorem isWithin_of_readAll {d : Query.Draft} (h : d.readAll n.members = .error e) :
    IsWithin e.position n := by
  obtain ⟨before, p, after, d', hmembers, -, hp⟩ := Reading.foldlM_eq_error.1 h
  have hmem : p ∈ n.members := by simp [hmembers]
  exact (isAt_of_read hp).isWithin hmem

/-- A block under a key stands within the node, and so do its fields. -/
theorem isWithin_blockUnder {key : String} (h : blockUnder key n.members ≠ {}) :
    IsWithin (blockUnder key n.members).position n ∧
      ∀ f ∈ (blockUnder key n.members).list, IsWithin f.position n := by
  unfold blockUnder at h ⊢
  cases hlast : lastUnder key n.members with
  | none =>
    rw [hlast] at h
    exact absurd rfl h
  | some p =>
    obtain ⟨hp, -⟩ := mem_of_lastUnder hlast
    refine ⟨.of_value hp (isWithin_resolve p.2), fun f hf => ?_⟩
    obtain ⟨p', hp', rfl⟩ := List.mem_map.1 hf
    exact .of_value hp (.of_key hp' ⟨p'.1, .self _, rfl⟩)

/-- A query of the wrong shape is wrong at its name or at its result fields. -/
theorem isAt_of_shapeError? {q : Query} (hname : q.position = p.1.position)
    (hout : q.out = blockUnder "out" p.2.members) (h : q.shapeError? = some e) :
    IsAt e.position p := by
  unfold Query.shapeError? at h
  split at h
  · cases h
    exact .inl hname
  · split at h
    · next hfields =>
      cases h
      rw [Bool.and_eq_true, Bool.not_eq_true', Bool.not_eq_true'] at hfields
      have hne : blockUnder "out" p.2.members ≠ {} := by
        rw [← hout]
        intro hempty
        rw [hempty] at hfields
        exact absurd hfields.2 (by decide)
      rw [hout]
      exact .inr (isWithin_blockUnder hne).1
    · obtain ⟨f, hf, rfl⟩ := Option.map_eq_some_iff.1 h
      have hmem : f ∈ (blockUnder "out" p.2.members).list := hout ▸ List.mem_of_find?_eq_some hf
      have hne : blockUnder "out" p.2.members ≠ {} := by
        intro hempty
        rw [hempty] at hmem
        cases hmem
      exact .inr ((isWithin_blockUnder hne).2 f hmem)

/-- A draft that is no query is wrong at the name or at the result fields. -/
theorem isAt_of_ofDraft {d : Query.Draft} (hout : d.out = blockUnder "out" p.2.members)
    (h : Query.ofDraft p.1 d = .error e) : IsAt e.position p := by
  unfold Query.ofDraft at h
  split at h
  · cases h
    exact .inl rfl
  · dsimp only at h
    split at h
    · next hshape =>
      cases h
      exact isAt_of_shapeError? rfl hout hshape
    · cases h

/-- A definition that cannot be read is wrong at its name or within it, and the error names the
query. -/
theorem located_of_ofNode (h : Query.ofNode p.1 p.2 = .error e) :
    e.query = p.1.text ∧ IsAt e.position p := by
  obtain ⟨e', hread, rfl⟩ := Reading.mapError_eq_error.1 h
  refine ⟨rfl, ?_⟩
  show IsAt e'.position p
  unfold Query.readDefinition at hread
  dsimp only at hread
  cases hpairs : p.2.resolve.pairs? with
  | none =>
    rw [hpairs] at hread
    cases hread
    exact .inr (isWithin_resolve p.2)
  | some pairs =>
    rw [hpairs] at hread
    obtain ⟨-, rfl⟩ := Node.pairs?_resolve_eq_some.1 hpairs
    rcases Reading.bind_eq_error.1 hread with h | ⟨d, hd, h⟩
    · exact .inr (isWithin_of_readAll h)
    · obtain ⟨hentries, rfl⟩ := readAll_eq_ok.1 hd
      obtain ⟨type, -, hdraft⟩ := foldl_addPair hentries
      rw [hdraft] at h
      exact isAt_of_ofDraft rfl h

/-! ## Documents -/

/-- An entry that cannot be read is wrong at its name or within its definition, and the error names
the query. -/
theorem located_of_readPair {qs : Queries} (h : qs.readPair p = .error e) :
    e.query = p.1.text ∧ IsAt e.position p := by
  unfold Queries.readPair at h
  dsimp only at h
  split at h
  · next hname =>
    cases h
    exact ⟨hname.symm, .inl rfl⟩
  · split at h
    · cases h
      exact ⟨rfl, .inl rfl⟩
    · exact located_of_ofNode (Reading.map_eq_error.1 h)

/-- What is read of a mapping is what its pairs say. -/
theorem ofNode_eq_foldlM {pairs : List (Node × Node)} (h : n.resolve.pairs? = some pairs) :
    Queries.ofNode n = pairs.foldlM Queries.readPair .empty := by
  unfold Queries.ofNode
  dsimp only
  rw [h]

/-- **The first error.** Where a mapping cannot be read as queries, there is a first entry that is
wrong: the entries before it are read if they stand alone, and the error is the same whatever
entries follow. It names the query of that entry, and is placed at its key or inside its value. -/
theorem first_error_located {root : Node} {e : SchemaError} (hroot : root.resolve.shape = .mapping)
    (h : Queries.ofNode root = .error e) :
    ∃ before p after, root.members = before ++ p :: after ∧
      (∀ other : Node, other.resolve.pairs? = some before →
        ∃ qs, Queries.ofNode other = .ok qs) ∧
      (∀ (other : Node) (after' : List (Node × Node)),
        other.resolve.pairs? = some (before ++ p :: after') → Queries.ofNode other = .error e) ∧
      e.query = p.1.text ∧
      (e.position = p.1.position ∨ ∃ m, p.2.Holds m ∧ e.position = m.position) := by
  rw [ofNode_eq_foldlM (Node.pairs?_resolve_eq_some.2 ⟨hroot, rfl⟩)] at h
  obtain ⟨before, p, after, qs, hmembers, hbefore, hp⟩ := Reading.foldlM_eq_error.1 h
  obtain ⟨hquery, hat⟩ := located_of_readPair hp
  refine ⟨before, p, after, hmembers, fun other hother => ⟨qs, ?_⟩, fun other after' hother => ?_,
    hquery, hat⟩
  · rw [ofNode_eq_foldlM hother, hbefore]
  · rw [ofNode_eq_foldlM hother]
    exact Reading.foldlM_eq_error.2 ⟨before, p, after', qs, rfl, hbefore, hp⟩

/-- A plain scalar without comments. -/
def plainNode (line column : Nat) (text : String) : Node :=
  .scalar { position := ⟨line, column⟩ } text .plain

/-- A block of fields whose only field has no type. -/
def untypedBlock : Node :=
  .mapping { position := ⟨1, 8⟩, anchor := some "P" } [(plainNode 1 9 "id", plainNode 1 13 "~")]

/-- A root whose second query takes its parameters from the block without a type; its third query is
wrong as well. -/
def untypedRoot : Node :=
  .mapping { position := ⟨2, 2⟩ }
    [(plainNode 2 1 "a", .mapping { position := ⟨3, 7⟩ }
        [(plainNode 3 3 "type", plainNode 3 9 "exec"), (plainNode 4 3 "sql", plainNode 4 8 "x")]),
      (plainNode 5 1 "b", .mapping { position := ⟨6, 6⟩ }
        [(plainNode 6 3 "sql", plainNode 6 8 "y"),
          (plainNode 7 3 "params", .reference { position := ⟨7, 11⟩ } untypedBlock)]),
      (plainNode 8 1 "b", plainNode 8 4 "z")]

/-- The first error is that of the second query, at the type behind its alias. -/
theorem first_error_located_behind_alias :
    untypedRoot.resolve.shape = .mapping ∧
      Queries.ofNode untypedRoot =
        .error { problem := .fieldTypeMissing "id", position := ⟨1, 13⟩, query := "b" } ∧
      ∃ before p after, untypedRoot.members = before ++ p :: after ∧
        (∀ other : Node, other.resolve.pairs? = some before →
          ∃ qs, Queries.ofNode other = .ok qs) ∧
        "b" = p.1.text ∧
        (⟨1, 13⟩ = p.1.position ∨ ∃ m, p.2.Holds m ∧ ⟨1, 13⟩ = m.position) := by
  have herror : Queries.ofNode untypedRoot =
      .error { problem := .fieldTypeMissing "id", position := ⟨1, 13⟩, query := "b" } := by
    decide +kernel
  obtain ⟨before, p, after, hmembers, haccepted, -, hquery, hposition⟩ :=
    first_error_located rfl herror
  exact ⟨rfl, herror, before, p, after, hmembers, haccepted, hquery, hposition⟩

end Grammar

end QueryBook
