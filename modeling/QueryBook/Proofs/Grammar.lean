import QueryBook.Proofs.Reading
import QueryBook.Queries
import Mathlib.Data.List.Nodup
import Mathlib.Tactic.Tauto

/-!
# The grammar of query documents

Which trees are query documents, said of the tree alone: names are distinct and not empty, keys are
known, values have the right shape, and the result fields fit the type. The main statement,
`accepts_exactly_documents`, says that the readers accept these trees and no others, and that what
they read is what the tree says, the later of two equal keys counting.
-/

namespace QueryBook

/-! ## Pairs of a mapping -/

/-- The pairs of a node that is a mapping or an alias to one. -/
def Node.members (n : Node) : List (Node × Node) := n.resolve.pairs?.getD []

/-- The texts of the keys of pairs. -/
def keyTexts (pairs : List (Node × Node)) : List String := pairs.map (·.1.text)

/-- The pairs under a key. -/
def pairsUnder (key : String) (pairs : List (Node × Node)) : List (Node × Node) :=
  pairs.filter fun p => p.1.text = key

/-- The pair that counts under a key, which is the last one. -/
def lastUnder (key : String) (pairs : List (Node × Node)) : Option (Node × Node) :=
  (pairsUnder key pairs).getLast?

/-- A node whose pairs are found is a mapping, aliases followed. -/
theorem Node.pairs?_resolve_eq_some {n : Node} {pairs : List (Node × Node)} :
    n.resolve.pairs? = some pairs ↔ n.resolve.shape = .mapping ∧ n.members = pairs := by
  unfold Node.members
  cases n.resolve <;> simp [Node.pairs?, Node.shape]

/-- A node without pairs is no mapping. -/
theorem Node.shape_resolve_ne_mapping {n : Node} (h : n.resolve.pairs? = none) :
    n.resolve.shape ≠ .mapping := by
  intro hshape
  have := Node.pairs?_resolve_eq_some.2 ⟨hshape, rfl⟩
  rw [h] at this
  cases this

theorem mem_pairsUnder {key : String} {pairs : List (Node × Node)} {p : Node × Node} :
    p ∈ pairsUnder key pairs ↔ p ∈ pairs ∧ p.1.text = key := by
  simp [pairsUnder]

/-- A later pair counts before the first one. -/
theorem lastUnder_cons (key : String) (p : Node × Node) (pairs : List (Node × Node)) :
    lastUnder key (p :: pairs) =
      (lastUnder key pairs).or (if p.1.text = key then some p else none) := by
  unfold lastUnder pairsUnder
  by_cases h : p.1.text = key
  · rw [List.filter_cons_of_pos (by simpa using h), List.getLast?_cons, if_pos h]
    cases (pairs.filter fun p => p.1.text = key).getLast? <;> rfl
  · rw [List.filter_cons_of_neg (by simpa using h), if_neg h, Option.or_none]

theorem lastUnder_nil (key : String) : lastUnder key [] = none := rfl

/-- The pair that counts is one of those under the key. -/
theorem mem_of_lastUnder {key : String} {pairs : List (Node × Node)} {p : Node × Node}
    (h : lastUnder key pairs = some p) : p ∈ pairs ∧ p.1.text = key :=
  mem_pairsUnder.1 (List.mem_of_getLast? h)

/-! ## The grammar -/

namespace Grammar

/-- The tokens of query types and what they stand for. -/
def typeTokens : List (String × QueryType) :=
  [("many", .many), ("one", .one), ("exec", .exec), ("affected", .affected), ("exist", .exist),
    ("id", .rowId), ("row_id", .rowId), ("rowid", .rowId)]

/-- The text is a token of a type, up to case. -/
def IsTokenOf (text : String) (type : QueryType) : Prop := (Text.lower text, type) ∈ typeTokens

/-- Keys that are texts, each its own. -/
structure HasNames (pairs : List (Node × Node)) : Prop where
  named : ∀ p ∈ pairs, p.1.text ≠ ""
  distinct : (keyTexts pairs).Nodup

/-- A node that can be the type of a field: a scalar whose text is not blank. -/
structure IsFieldType (n : Node) : Prop where
  scalar : n.resolve.shape = .scalar
  notBlank : Text.trim n.resolve.text ≠ ""

/-- A node that can be a block of fields. -/
structure IsBlock (n : Node) : Prop where
  mapping : n.resolve.shape = .mapping
  names : HasNames n.members
  types : ∀ p ∈ n.members, IsFieldType p.2

/-- A node that can be the SQL of a query. -/
structure IsSql (n : Node) : Prop where
  scalar : n.resolve.shape = .scalar
  notBlank : ∃ c ∈ n.resolve.text.toList, Text.isBlank c = false

/-- The field that a pair of a block describes. -/
def fieldOf (p : Node × Node) : Field :=
  { name := p.1.text, type := Text.trim p.2.resolve.text, comment := .ofNodes [p.1, p.2],
    position := p.1.position }

/-- The block of fields that a node describes, without a comment. -/
def blockOf (n : Node) : Fields :=
  { list := n.members.map fieldOf, anchor := n.anchor, copyOf := n.aliasOf,
    position := n.resolve.position }

/-- The block that a pair describes, with the comment of its key. -/
def commentedBlock (p : Node × Node) : Fields :=
  { blockOf p.2 with comment := .ofNodes [p.1] }

/-- The SQL that a pair describes. -/
def sqlOf (p : Node × Node) : Sql :=
  { text := p.2.resolve.text, position := p.2.resolve.position }

/-- The block under a key; the block without fields where the key is missing. -/
def blockUnder (key : String) (pairs : List (Node × Node)) : Fields :=
  ((lastUnder key pairs).map commentedBlock).getD {}

/-- The type of the query that pairs describe: that of the last token, else the one for every
row. -/
def IsTypeUnder (pairs : List (Node × Node)) (type : QueryType) : Prop :=
  match lastUnder "type" pairs with
  | some p => IsTokenOf p.2.resolve.text type
  | none => type = .many

/-- Result fields fit a type: types that read rows have some, others none, and none of them is a
pointer or a reference. -/
structure FitsType (type : QueryType) (out : List Field) : Prop where
  present : out ≠ [] ↔ type = .many ∨ type = .one
  values : ∀ f ∈ out, ∀ c, f.type.toList.head? = some c → c ≠ '*' ∧ c ≠ '&'

/-- A pair that a definition can have: its key is known, and its value fits the key. -/
structure IsEntry (p : Node × Node) : Prop where
  key : p.1.text ∈ ["type", "sql", "params", "out"]
  type : p.1.text = "type" → ∃ type, IsTokenOf p.2.resolve.text type
  sql : p.1.text = "sql" → IsSql p.2
  params : p.1.text = "params" → IsBlock p.2
  out : p.1.text = "out" → IsBlock p.2

/-- A node that can be the definition of a query. -/
structure IsDefinition (n : Node) : Prop where
  mapping : n.resolve.shape = .mapping
  entries : ∀ p ∈ n.members, IsEntry p
  hasSql : pairsUnder "sql" n.members ≠ []
  shape : ∀ type, IsTypeUnder n.members type → FitsType type (blockUnder "out" n.members).list

/-- A node that can be the root of a query document. -/
structure IsDocument (root : Node) : Prop where
  mapping : root.resolve.shape = .mapping
  names : HasNames root.members
  definitions : ∀ p ∈ root.members, IsDefinition p.2

/-- The query is what a name and its definition say. -/
structure Describes (p : Node × Node) (q : Query) : Prop where
  name : q.name = p.1.text
  comment : q.comment = .ofNodes [p.1]
  position : q.position = p.1.position
  type : IsTypeUnder p.2.members q.type
  sql : (lastUnder "sql" p.2.members).map sqlOf = some q.sql
  params : q.params = blockUnder "params" p.2.members
  out : q.out = blockUnder "out" p.2.members

/-! ## Tokens -/

/-- A token is read as the type it stands for. -/
theorem ofToken?_eq_some {text : String} {type : QueryType} :
    QueryType.ofToken? text = some type ↔ IsTokenOf text type := by
  unfold QueryType.ofToken? IsTokenOf
  generalize Text.lower text = token
  constructor
  · intro h
    unfold QueryType.ofLowerToken? at h
    split at h <;> cases h <;> decide
  · intro h
    simp only [typeTokens, List.mem_cons, Prod.mk.injEq, List.not_mem_nil, or_false] at h
    rcases h with ⟨rfl, rfl⟩ | ⟨rfl, rfl⟩ | ⟨rfl, rfl⟩ | ⟨rfl, rfl⟩ | ⟨rfl, rfl⟩ | ⟨rfl, rfl⟩ |
      ⟨rfl, rfl⟩ | ⟨rfl, rfl⟩ <;> rfl

/-- A text stands for one type at most. -/
theorem IsTokenOf.unique {text : String} {type type' : QueryType} (h : IsTokenOf text type)
    (h' : IsTokenOf text type') : type = type' := by
  rw [← ofToken?_eq_some] at h h'
  rw [h] at h'
  exact Option.some.inj h'

/-! ## Names -/

/-- Keys that are texts, each its own, and none of them taken. -/
structure HasNewNames (taken : List String) (pairs : List (Node × Node)) : Prop
    extends HasNames pairs where
  free : ∀ p ∈ pairs, p.1.text ∉ taken

theorem hasNewNames_nil {taken : List String} : HasNewNames taken [] :=
  ⟨⟨nofun, List.nodup_nil⟩, nofun⟩

/-- The names taken grow by that of the head, so that it is new to the tail as well. -/
theorem hasNewNames_cons {taken : List String} {p : Node × Node} {pairs : List (Node × Node)} :
    HasNewNames taken (p :: pairs) ↔
      p.1.text ≠ "" ∧ p.1.text ∉ taken ∧ HasNewNames (taken ++ [p.1.text]) pairs := by
  constructor
  · rintro ⟨⟨hnamed, hdistinct⟩, hfree⟩
    rw [List.forall_mem_cons] at hnamed hfree
    obtain ⟨hnew, hdistinct⟩ := List.nodup_cons.1 hdistinct
    refine ⟨hnamed.1, hfree.1, ⟨hnamed.2, hdistinct⟩, fun p' hp' hmem => ?_⟩
    rcases List.mem_append.1 hmem with hmem | hmem
    · exact hfree.2 p' hp' hmem
    · exact hnew (List.mem_map.2 ⟨p', hp', List.mem_singleton.1 hmem⟩)
  · rintro ⟨hname, hfree, hnames, htaken⟩
    refine ⟨⟨List.forall_mem_cons.2 ⟨hname, hnames.named⟩, List.nodup_cons.2 ⟨?_, hnames.distinct⟩⟩,
      List.forall_mem_cons.2 ⟨hfree, fun p' hp' hmem => ?_⟩⟩
    · intro hmem
      obtain ⟨p', hp', heq⟩ := List.mem_map.1 hmem
      exact htaken p' hp' (List.mem_append_right _ (List.mem_singleton.2 heq))
    · exact htaken p' hp' (List.mem_append_left _ hmem)

/-- Where no name is taken, the names need only be distinct. -/
theorem hasNewNames_empty {pairs : List (Node × Node)} : HasNewNames [] pairs ↔ HasNames pairs :=
  ⟨fun h => h.toHasNames, fun h => ⟨h, fun _ _ => List.not_mem_nil⟩⟩

/-! ## Fields -/

/-- A pair is read as a field exactly if its name is not empty and its type is one. -/
theorem readField_eq_ok {p : Node × Node} {f : Field} :
    Fields.readField p.1 p.2 = .ok f ↔ p.1.text ≠ "" ∧ IsFieldType p.2 ∧ f = fieldOf p := by
  unfold Fields.readField
  dsimp only
  constructor
  · intro h
    split at h
    · cases h
    · next hname =>
      split at h
      · cases h
      · next hscalar =>
        split at h
        · cases h
        · next htype =>
          cases h
          exact ⟨hname, ⟨by simpa [Node.isScalar] using hscalar, htype⟩, rfl⟩
  · rintro ⟨hname, ⟨hscalar, htype⟩, rfl⟩
    rw [if_neg hname, if_neg (by simp [Node.isScalar, hscalar]), if_neg htype]
    rfl

/-- A field is appended exactly if its name is not taken. -/
theorem push_eq_ok {fs fs' : Fields} {f : Field} :
    fs.push f = .ok fs' ↔
      f.name ∉ fs.list.map (·.name) ∧ fs' = { fs with list := fs.list ++ [f] } := by
  have hget : (fs.get? f.name).isSome = true ↔ f.name ∈ fs.list.map (·.name) := by
    simp [Fields.get?, List.find?_isSome]
  unfold Fields.push
  constructor
  · intro h
    split at h
    · cases h
    · next hfree =>
      cases h
      exact ⟨fun hmem => hfree (hget.2 hmem), rfl⟩
  · rintro ⟨hfree, rfl⟩
    rw [if_neg fun hsome => hfree (hget.1 hsome)]

/-- The names of the fields of pairs are the texts of their keys. -/
theorem map_name_map_fieldOf (pairs : List (Node × Node)) :
    (pairs.map fieldOf).map (·.name) = keyTexts pairs := by
  simp [keyTexts, fieldOf]

/-- Pairs are read into a block exactly if they have new names and all have types. -/
theorem foldlM_readPair_eq_ok {pairs : List (Node × Node)} :
    ∀ {fs fs' : Fields}, pairs.foldlM Fields.readPair fs = .ok fs' ↔
      HasNewNames (fs.list.map (·.name)) pairs ∧ (∀ p ∈ pairs, IsFieldType p.2) ∧
        fs' = { fs with list := fs.list ++ pairs.map fieldOf } := by
  induction pairs with
  | nil =>
    intro fs fs'
    rw [Reading.foldlM_nil_eq_ok]
    simp [hasNewNames_nil]
  | cons p pairs ih =>
    intro fs fs'
    have htaken : (fs.list ++ [fieldOf p]).map (·.name) =
        fs.list.map (·.name) ++ [p.1.text] := List.map_append
    rw [Reading.foldlM_cons_eq_ok, hasNewNames_cons, List.forall_mem_cons, ← htaken]
    constructor
    · rintro ⟨next, hnext, hrest⟩
      obtain ⟨f, hf, hpush⟩ := Reading.bind_eq_ok.1 hnext
      obtain ⟨hname, htype, rfl⟩ := readField_eq_ok.1 hf
      obtain ⟨hfree, rfl⟩ := push_eq_ok.1 hpush
      obtain ⟨hnames, htypes, rfl⟩ := ih.1 hrest
      exact ⟨⟨hname, hfree, hnames⟩, ⟨htype, htypes⟩, by simp⟩
    · rintro ⟨⟨hname, hfree, hnames⟩, ⟨htype, htypes⟩, rfl⟩
      refine ⟨{ fs with list := fs.list ++ [fieldOf p] }, ?_, ih.2 ⟨hnames, htypes, by simp⟩⟩
      exact Reading.bind_eq_ok.2
        ⟨fieldOf p, readField_eq_ok.2 ⟨hname, htype, rfl⟩, push_eq_ok.2 ⟨hfree, rfl⟩⟩

/-- A node is read as a block exactly if it is one, and then as what it describes. -/
theorem fieldsOfNode_eq_ok {n : Node} {fs : Fields} :
    Fields.ofNode n = .ok fs ↔ IsBlock n ∧ fs = blockOf n := by
  unfold Fields.ofNode
  dsimp only
  cases hpairs : n.resolve.pairs? with
  | none =>
    simp only [reduceCtorEq, false_iff]
    exact fun h => Node.shape_resolve_ne_mapping hpairs h.1.mapping
  | some pairs =>
    obtain ⟨hshape, rfl⟩ := Node.pairs?_resolve_eq_some.1 hpairs
    simp only [foldlM_readPair_eq_ok, List.map_nil, hasNewNames_empty]
    constructor
    · rintro ⟨hnames, htypes, rfl⟩
      exact ⟨⟨hshape, hnames, htypes⟩, by simp [blockOf]⟩
    · rintro ⟨⟨-, hnames, htypes⟩, rfl⟩
      exact ⟨hnames, htypes, by simp [blockOf]⟩

/-! ## SQL -/

/-- A node is read as SQL exactly if it is SQL, and then as its text. -/
theorem sqlOfNode_eq_ok {n : Node} {sql : Sql} :
    Sql.ofNode n = .ok sql ↔
      IsSql n ∧ sql = { text := n.resolve.text, position := n.resolve.position } := by
  have hblank : Text.isAllBlank n.resolve.text = true ↔
      ¬∃ c ∈ n.resolve.text.toList, Text.isBlank c = false := by
    simp [Text.isAllBlank]
  unfold Sql.ofNode
  dsimp only
  constructor
  · intro h
    split at h
    · cases h
    · next hscalar =>
      split at h
      · cases h
      · next htext =>
        cases h
        refine ⟨⟨by simpa [Node.isScalar] using hscalar, ?_⟩, rfl⟩
        exact Classical.not_not.1 fun hnot => htext (hblank.2 hnot)
  · rintro ⟨⟨hscalar, htext⟩, rfl⟩
    rw [if_neg (by simp [Node.isScalar, hscalar]), if_neg fun h => hblank.1 h htext]

/-! ## Keys of a query -/

/-- The draft with what a pair says, if the pair is an entry. -/
def addPair (d : Query.Draft) (p : Node × Node) : Query.Draft where
  type := if p.1.text = "type" then (QueryType.ofToken? p.2.resolve.text).getD .many else d.type
  sql := if p.1.text = "sql" then some (sqlOf p) else d.sql
  params := if p.1.text = "params" then commentedBlock p else d.params
  out := if p.1.text = "out" then commentedBlock p else d.out

/-- A pair is read exactly if it is an entry. -/
theorem read_eq_ok {d d' : Query.Draft} {p : Node × Node} :
    d.read p.1 p.2 = .ok d' ↔ IsEntry p ∧ d' = addPair d p := by
  have hentry : IsEntry p ↔ p.1.text ∈ ["type", "sql", "params", "out"] ∧
      (p.1.text = "type" → ∃ type, IsTokenOf p.2.resolve.text type) ∧
      (p.1.text = "sql" → IsSql p.2) ∧ (p.1.text = "params" → IsBlock p.2) ∧
      (p.1.text = "out" → IsBlock p.2) :=
    ⟨fun ⟨a, b, c, d, e⟩ => ⟨a, b, c, d, e⟩, fun ⟨a, b, c, d, e⟩ => ⟨a, b, c, d, e⟩⟩
  unfold Query.Draft.read addPair
  by_cases htype : p.1.text = "type"
  · rw [if_pos htype]
    cases htoken : QueryType.ofToken? p.2.resolve.text with
    | none =>
      have hnone : ∀ type, ¬IsTokenOf p.2.resolve.text type := by
        intro type h
        rw [← ofToken?_eq_some, htoken] at h
        cases h
      simp [hentry, htype, hnone]
    | some type =>
      have htok : IsTokenOf p.2.resolve.text type := ofToken?_eq_some.1 htoken
      have hex : ∃ type, IsTokenOf p.2.resolve.text type := ⟨type, htok⟩
      simp [hentry, htype, hex, eq_comm]
  rw [if_neg htype]
  by_cases hsql : p.1.text = "sql"
  · rw [if_pos hsql, Reading.map_eq_ok_iff fun _ => sqlOfNode_eq_ok]
    simp [hentry, hsql, sqlOf]
  rw [if_neg hsql]
  by_cases hparams : p.1.text = "params"
  · rw [if_pos hparams, Reading.map_eq_ok_iff fun _ => fieldsOfNode_eq_ok]
    simp [hentry, hparams, commentedBlock]
  rw [if_neg hparams]
  by_cases hout : p.1.text = "out"
  · rw [if_pos hout, Reading.map_eq_ok_iff fun _ => fieldsOfNode_eq_ok]
    simp [hentry, hout, commentedBlock]
  rw [if_neg hout]
  simp [hentry, htype, hsql, hparams, hout]

/-- Pairs are read exactly if all are entries. -/
theorem readAll_eq_ok {pairs : List (Node × Node)} :
    ∀ {d d' : Query.Draft}, d.readAll pairs = .ok d' ↔
      (∀ p ∈ pairs, IsEntry p) ∧ d' = pairs.foldl addPair d := by
  unfold Query.Draft.readAll
  induction pairs with
  | nil =>
    intro d d'
    rw [Reading.foldlM_nil_eq_ok]
    simp
  | cons p pairs ih =>
    intro d d'
    rw [Reading.foldlM_cons_eq_ok, List.forall_mem_cons, List.foldl_cons]
    constructor
    · rintro ⟨next, hnext, hrest⟩
      obtain ⟨hp, rfl⟩ := read_eq_ok.1 hnext
      obtain ⟨hall, rfl⟩ := ih.1 hrest
      exact ⟨⟨hp, hall⟩, rfl⟩
    · rintro ⟨⟨hp, hall⟩, rfl⟩
      exact ⟨addPair d p, read_eq_ok.2 ⟨hp, rfl⟩, ih.2 ⟨hall, rfl⟩⟩

/-- A part of the draft that only one key changes is what the last pair under that key says. -/
theorem foldl_addPair_under {γ : Type} {key : String} (part : Query.Draft → γ)
    {value : Node × Node → γ}
    (h : ∀ d p, part (addPair d p) = if p.1.text = key then value p else part d)
    (pairs : List (Node × Node)) :
    ∀ d, part (pairs.foldl addPair d) = ((lastUnder key pairs).map value).getD (part d) := by
  induction pairs with
  | nil =>
    intro d
    rfl
  | cons p pairs ih =>
    intro d
    rw [List.foldl_cons, ih, h, lastUnder_cons]
    cases lastUnder key pairs with
    | some last => rfl
    | none => by_cases hp : p.1.text = key <;> simp [hp]

/-- The draft of entries: type, SQL and blocks are those of the last pairs under their keys. -/
theorem foldl_addPair {pairs : List (Node × Node)} (h : ∀ p ∈ pairs, IsEntry p) :
    ∃ type, (∀ type', IsTypeUnder pairs type' ↔ type' = type) ∧
      pairs.foldl addPair {} =
        { type, sql := (lastUnder "sql" pairs).map sqlOf, params := blockUnder "params" pairs,
          out := blockUnder "out" pairs } := by
  have htype := foldl_addPair_under (·.type) (fun _ _ => rfl) pairs {}
  have hsql := foldl_addPair_under (·.sql) (fun _ _ => rfl) pairs {}
  have hparams := foldl_addPair_under (·.params) (fun _ _ => rfl) pairs {}
  have hout := foldl_addPair_under (·.out) (fun _ _ => rfl) pairs {}
  refine ⟨(pairs.foldl addPair {}).type, ?_, ?_⟩
  · intro type'
    rw [htype]
    unfold IsTypeUnder
    cases hlast : lastUnder "type" pairs with
    | none => rfl
    | some p =>
      obtain ⟨hp, hkey⟩ := mem_of_lastUnder hlast
      obtain ⟨type, htok⟩ := (h p hp).type hkey
      have hof := ofToken?_eq_some.2 htok
      dsimp only
      rw [← ofToken?_eq_some, hof]
      simp [hof, eq_comm]
  · generalize pairs.foldl addPair {} = d at *
    obtain ⟨type, sql, params, out⟩ := d
    simp only at hsql hparams hout ⊢
    rw [hsql, hparams, hout]
    cases lastUnder "sql" pairs <;> rfl

/-! ## Queries -/

/-- Nothing is wrong with the shape of a query exactly if its result fields fit its type. -/
theorem shapeError?_eq_none {q : Query} :
    q.shapeError? = none ↔ FitsType q.type q.out.list := by
  have hrows : q.type.returnsRows = true ↔ q.type = .many ∨ q.type = .one := by
    cases q.type <;> simp [QueryType.returnsRows]
  have hempty : q.out.isEmpty = true ↔ q.out.list = [] := by
    simp [Fields.isEmpty]
  have hpointer : ∀ f : Field, ¬f.isPointer = true ↔
      ∀ c, f.type.toList.head? = some c → c ≠ '*' ∧ c ≠ '&' := by
    intro f
    unfold Field.isPointer
    cases f.type.toList.head? <;> simp
  have hvalues : q.out.list.find? (·.isPointer) = none ↔
      ∀ f ∈ q.out.list, ∀ c, f.type.toList.head? = some c → c ≠ '*' ∧ c ≠ '&' := by
    rw [List.find?_eq_none]
    exact forall₂_congr fun f _ => hpointer f
  have hfits : FitsType q.type q.out.list ↔
      (q.out.list ≠ [] ↔ q.type = .many ∨ q.type = .one) ∧
        ∀ f ∈ q.out.list, ∀ c, f.type.toList.head? = some c → c ≠ '*' ∧ c ≠ '&' :=
    ⟨fun h => ⟨h.present, h.values⟩, fun h => ⟨h.1, h.2⟩⟩
  rw [hfits, ← hvalues, ← hrows, Ne, ← hempty]
  unfold Query.shapeError?
  cases q.type.returnsRows <;> cases q.out.isEmpty <;> simp

/-- A draft becomes a query exactly if it has SQL and its result fields fit its type. -/
theorem ofDraft_eq_ok {name : Node} {d : Query.Draft} {q : Query} :
    Query.ofDraft name d = .ok q ↔
      FitsType d.type d.out.list ∧ ∃ sql, d.sql = some sql ∧
        q = { name := name.text, comment := .ofNodes [name], type := d.type, sql,
              params := d.params, out := d.out, position := name.position } := by
  unfold Query.ofDraft
  cases hsql : d.sql with
  | none => simp
  | some sql =>
    dsimp only
    constructor
    · intro h
      split at h
      · cases h
      · next hshape =>
        cases h
        exact ⟨shapeError?_eq_none.1 hshape, sql, rfl, rfl⟩
    · rintro ⟨hfits, sql', hsql', rfl⟩
      obtain rfl := Option.some.inj hsql'
      rw [shapeError?_eq_none.2 hfits]

/-- A definition is read exactly if it is one, and then as what it describes. -/
theorem queryOfNode_eq_ok {p : Node × Node} {q : Query} :
    Query.ofNode p.1 p.2 = .ok q ↔ IsDefinition p.2 ∧ Describes p q := by
  unfold Query.ofNode Query.readDefinition
  rw [Reading.mapError_eq_ok]
  dsimp only
  cases hpairs : p.2.resolve.pairs? with
  | none =>
    simp only [reduceCtorEq, false_iff]
    exact fun h => Node.shape_resolve_ne_mapping hpairs h.1.mapping
  | some pairs =>
    obtain ⟨hshape, rfl⟩ := Node.pairs?_resolve_eq_some.1 hpairs
    rw [Reading.bind_eq_ok]
    constructor
    · rintro ⟨d, hd, hq⟩
      obtain ⟨hentries, rfl⟩ := readAll_eq_ok.1 hd
      obtain ⟨type, htype, hdraft⟩ := foldl_addPair hentries
      rw [hdraft] at hq
      obtain ⟨hfits, sql, hsql, rfl⟩ := ofDraft_eq_ok.1 hq
      -- a draft without the key has no SQL
      have hlast : lastUnder "sql" p.2.members ≠ none := by
        intro hnone
        rw [hnone] at hsql
        cases hsql
      refine ⟨⟨hshape, hentries, ?_, ?_⟩, ⟨rfl, rfl, rfl, (htype type).2 rfl, hsql, rfl, rfl⟩⟩
      · intro hnil
        exact hlast (by rw [lastUnder, hnil]; rfl)
      · intro type' htype'
        rw [(htype type').1 htype']
        exact hfits
    · rintro ⟨⟨-, hentries, hsql, hfits⟩, hq⟩
      obtain ⟨type, htype, hdraft⟩ := foldl_addPair hentries
      refine ⟨_, readAll_eq_ok.2 ⟨hentries, rfl⟩, ?_⟩
      rw [hdraft]
      refine ofDraft_eq_ok.2 ⟨hfits type ((htype type).2 rfl), q.sql, hq.sql, ?_⟩
      obtain ⟨name, comment, type', sql, params, out, position⟩ := q
      obtain ⟨rfl, rfl, rfl, htype', -, rfl, rfl⟩ := hq
      rw [(htype type').1 htype']

/-! ## Documents -/

/-- A query is there under a name exactly if the name is listed. -/
theorem isSome_get? {qs : Queries} {name : String} :
    (qs.get? name).isSome = true ↔ name ∈ qs.names := by
  simp [Queries.get?, Queries.names, List.find?_isSome]

/-- A pair is appended exactly if its name is not empty and not taken and its value is a
definition. -/
theorem readPair_eq_ok {qs qs' : Queries} {p : Node × Node} :
    qs.readPair p = .ok qs' ↔
      p.1.text ≠ "" ∧ p.1.text ∉ qs.names ∧ IsDefinition p.2 ∧
        ∃ q, Describes p q ∧ qs' = ⟨qs.list ++ [q]⟩ := by
  unfold Queries.readPair
  dsimp only
  constructor
  · intro h
    split at h
    · cases h
    · next hname =>
      split at h
      · cases h
      · next hfree =>
        obtain ⟨q, hq, rfl⟩ := Reading.map_eq_ok.1 h
        obtain ⟨hdef, hdescribes⟩ := queryOfNode_eq_ok.1 hq
        exact ⟨hname, fun hmem => hfree (isSome_get?.2 hmem), hdef, q, hdescribes, rfl⟩
  · rintro ⟨hname, hfree, hdef, q, hdescribes, rfl⟩
    rw [if_neg hname, if_neg fun h => hfree (isSome_get?.1 h), Reading.map_eq_ok]
    exact ⟨q, queryOfNode_eq_ok.2 ⟨hdef, hdescribes⟩, rfl⟩

/-- Pairs are appended exactly if they have new names and all are definitions. -/
theorem foldlM_readPair_queries_eq_ok {pairs : List (Node × Node)} :
    ∀ {qs qs' : Queries}, pairs.foldlM Queries.readPair qs = .ok qs' ↔
      HasNewNames qs.names pairs ∧ (∀ p ∈ pairs, IsDefinition p.2) ∧
        ∃ new, List.Forall₂ Describes pairs new ∧ qs' = ⟨qs.list ++ new⟩ := by
  induction pairs with
  | nil =>
    intro qs qs'
    rw [Reading.foldlM_nil_eq_ok]
    simp [hasNewNames_nil]
  | cons p pairs ih =>
    intro qs qs'
    have htaken {q : Query} (hq : Describes p q) :
        Queries.names ⟨qs.list ++ [q]⟩ = qs.names ++ [p.1.text] := by
      rw [Queries.names, List.map_append, List.map_singleton, hq.name]
      rfl
    rw [Reading.foldlM_cons_eq_ok, hasNewNames_cons, List.forall_mem_cons]
    constructor
    · rintro ⟨next, hnext, hrest⟩
      obtain ⟨hname, hfree, hdef, q, hq, rfl⟩ := readPair_eq_ok.1 hnext
      obtain ⟨hnames, hdefs, new, hnew, rfl⟩ := ih.1 hrest
      rw [htaken hq] at hnames
      exact ⟨⟨hname, hfree, hnames⟩, ⟨hdef, hdefs⟩, q :: new, .cons hq hnew, by simp⟩
    · rintro ⟨⟨hname, hfree, hnames⟩, ⟨hdef, hdefs⟩, new, hnew, rfl⟩
      cases hnew with
      | @cons _ q _ new hq hnew =>
        rw [← htaken hq] at hnames
        exact ⟨⟨qs.list ++ [q]⟩, readPair_eq_ok.2 ⟨hname, hfree, hdef, q, hq, rfl⟩,
          ih.2 ⟨hnames, hdefs, new, hnew, by simp⟩⟩

/-- A tree is read exactly if it is a document, and then as the queries it describes. -/
theorem queriesOfNode_eq_ok {root : Node} {qs : Queries} :
    Queries.ofNode root = .ok qs ↔
      IsDocument root ∧ List.Forall₂ Describes root.members qs.list := by
  unfold Queries.ofNode
  dsimp only
  cases hpairs : root.resolve.pairs? with
  | none =>
    simp only [reduceCtorEq, false_iff]
    exact fun h => Node.shape_resolve_ne_mapping hpairs h.1.mapping
  | some pairs =>
    obtain ⟨hshape, rfl⟩ := Node.pairs?_resolve_eq_some.1 hpairs
    have hempty : Queries.empty.names = [] := rfl
    simp only [foldlM_readPair_queries_eq_ok, hempty, hasNewNames_empty]
    constructor
    · rintro ⟨hnames, hdefs, new, hnew, rfl⟩
      exact ⟨⟨hshape, hnames, hdefs⟩, by simpa [Queries.empty] using hnew⟩
    · rintro ⟨⟨-, hnames, hdefs⟩, hlist⟩
      exact ⟨hnames, hdefs, qs.list, hlist, by simp [Queries.empty]⟩

/-- A definition describes a query. -/
theorem exists_describes {p : Node × Node} (h : IsDefinition p.2) : ∃ q, Describes p q := by
  obtain ⟨type, htype, -⟩ := foldl_addPair h.entries
  have hsql : lastUnder "sql" p.2.members ≠ none := by
    rw [lastUnder, Ne, List.getLast?_eq_none_iff]
    exact h.hasSql
  obtain ⟨sql, hsql⟩ := Option.ne_none_iff_exists'.1 hsql
  exact ⟨⟨p.1.text, .ofNodes [p.1], type, sqlOf sql, _, _, p.1.position⟩,
    ⟨rfl, rfl, rfl, (htype type).2 rfl, by rw [hsql]; rfl, rfl, rfl⟩⟩

/-- Definitions describe queries. -/
theorem exists_forall₂_describes {pairs : List (Node × Node)}
    (h : ∀ p ∈ pairs, IsDefinition p.2) : ∃ list, List.Forall₂ Describes pairs list := by
  induction pairs with
  | nil => exact ⟨[], .nil⟩
  | cons p pairs ih =>
    obtain ⟨q, hq⟩ := exists_describes (h p (List.mem_cons_self ..))
    obtain ⟨list, hlist⟩ := ih fun p' hp' => h p' (List.mem_cons_of_mem _ hp')
    exact ⟨q :: list, .cons hq hlist⟩

/-- The names of the queries described are the texts of the keys. -/
theorem names_eq_keyTexts {pairs : List (Node × Node)} {list : List Query}
    (h : List.Forall₂ Describes pairs list) : list.map (·.name) = keyTexts pairs := by
  induction h with
  | nil => rfl
  | cons hq _ ih => rw [List.map_cons, ih, hq.name]; rfl

/-- The names of queries that were read are distinct. -/
theorem nodup_names_of_ofNode {root : Node} {qs : Queries} (h : Queries.ofNode root = .ok qs) :
    qs.names.Nodup := by
  obtain ⟨hdocument, hdescribes⟩ := queriesOfNode_eq_ok.1 h
  rw [Queries.names, names_eq_keyTexts hdescribes]
  exact hdocument.names.distinct

/-- So are those of the queries of a source. -/
theorem nodup_names_of_parse [Diagnosis] {source : String} {qs : Queries}
    (h : Queries.parse source = .ok qs) : qs.names.Nodup := by
  obtain ⟨root?, -, hqs⟩ := Reading.bind_eq_ok.mp h
  cases root? with
  | none =>
    cases hqs
    exact List.nodup_nil
  | some root => exact nodup_names_of_ofNode hqs

/-- A source that is read holds the queries that are read. -/
theorem parse_eq_ok [Diagnosis] {source : String}
    (h : (Queries.parse source).toOption.isSome = true) :
    Queries.parse source = .ok ((Queries.parse source).toOption.getD .empty) :=
  Reading.eq_ok_getD h .empty

/-- Where names are distinct, every query is found under its own. -/
theorem get?_name_of_nodup {qs : Queries} (h : qs.names.Nodup) {q : Query} (hq : q ∈ qs.list) :
    qs.get? q.name = some q := by
  obtain ⟨q', hq'⟩ := Option.isSome_iff_exists.1
    (isSome_get?.2 (List.mem_map.2 ⟨q, hq, rfl⟩ : q.name ∈ qs.names))
  have hname : q'.name = q.name := by simpa using List.find?_some hq'
  have hmem : q' ∈ qs.list := List.mem_of_find?_eq_some hq'
  rw [hq', List.inj_on_of_nodup_map h hmem hq hname]

/-- **What is accepted, and as what.** A tree is read as queries exactly if it is a document. The
queries are then those that the pairs of the root describe, in order; each is found under its name,
and nothing is found under another name. -/
theorem accepts_exactly_documents (root : Node) :
    ((∃ qs, Queries.ofNode root = .ok qs) ↔ IsDocument root) ∧
      ∀ qs, Queries.ofNode root = .ok qs →
        List.Forall₂ Describes root.members qs.list ∧
          (∀ q ∈ qs.list, qs.get? q.name = some q) ∧
          ∀ name, name ∉ qs.names → qs.get? name = none := by
  refine ⟨⟨?_, ?_⟩, ?_⟩
  · rintro ⟨qs, hqs⟩
    exact (queriesOfNode_eq_ok.1 hqs).1
  · intro h
    obtain ⟨list, hlist⟩ := exists_forall₂_describes h.definitions
    exact ⟨⟨list⟩, queriesOfNode_eq_ok.2 ⟨h, hlist⟩⟩
  · intro qs hqs
    obtain ⟨hdoc, hlist⟩ := queriesOfNode_eq_ok.1 hqs
    have hnodup := nodup_names_of_ofNode hqs
    refine ⟨hlist, fun q hq => get?_name_of_nodup hnodup hq, fun name hname => ?_⟩
    rw [← Option.not_isSome_iff_eq_none]
    exact fun h => hname (isSome_get?.1 h)

end Grammar

end QueryBook
