import QueryBook.Proofs.RoundTrip

/-!
# SQL inside mappings

SQL is written as the last value of a document, under a key `sql` that may stand inside any number
of mappings, each indented two columns deeper than the one around it and with pairs of its own in
front. Its place is known from the lines above it, and so is the place of its node.
-/

namespace QueryBook

open Canonical (spaces)
open Text (unlines)
open Yaml

/-! ## Outlines one behind the other -/

/-- The names that a value refers to. -/
def Leaf.references : Leaf → List String
  | reference name => [name]
  | _ => []

namespace Outline

/-- The pairs of an outline and then those of another. -/
def append : Outline → Outline → Outline
  | done, o => o
  | leaf h v rest, o => leaf h v (rest.append o)
  | nested h anchor inner rest, o => nested h anchor inner (rest.append o)

/-- The names that the aliases of an outline refer to. -/
def references : Outline → List String
  | done => []
  | leaf _ v rest => v.references ++ rest.references
  | nested _ _ inner rest => inner.references ++ rest.references

/-- An outline as it is written at an indentation. -/
def text (o : Outline) (indent : Nat) : String := String.ofList (unlines (o.lines indent))

theorem lines_append (before o : Outline) (k : Nat) :
    (before.append o).lines k = before.lines k ++ o.lines k := by
  induction before with
  | done => rfl
  | leaf h v rest ih => rw [append, lines, lines, ih, List.append_assoc, List.append_assoc]
  | nested h anchor inner rest _ ih =>
    rw [append, lines, lines, ih, List.append_assoc, List.append_assoc]

theorem references_append (before o : Outline) :
    (before.append o).references = before.references ++ o.references := by
  induction before with
  | done => rfl
  | leaf h v rest ih => rw [append, references, references, ih, List.append_assoc]
  | nested h anchor inner rest _ ih => rw [append, references, references, ih, List.append_assoc]

theorem Legible.append {before o : Outline} {k : Nat} (hbefore : before.Legible k)
    (ho : o.Legible k) : (before.append o).Legible k := by
  induction before with
  | done => exact ho
  | leaf h v rest ih => exact ⟨hbefore.1, hbefore.2.1, ih hbefore.2.2⟩
  | nested h anchor inner rest _ ih =>
    obtain ⟨hheading, hanchor, hne, hinner, hrest⟩ := hbefore
    exact ⟨hheading, hanchor, hne, hinner, ih hrest⟩

/-! ## Outlines without aliases -/

variable {m : Margin} {o before : Outline}

/-- A value that is no alias has an event. -/
theorem isSome_event {v : Leaf} (h : v.references = []) (k : Nat) (position : Position)
    (blanks : Nat) (seen : List String) : (v.event k position blanks seen).isSome := by
  cases v with
  | text t | literal t => rfl
  | reference name => cases h

/-- An outline without aliases has events. -/
theorem isSome_events (h : o.references = []) (k line : Nat) (next : Position) (after : Nat)
    (seen : List String) : (o.events k line next after seen).isSome := by
  induction o generalizing k line next after seen with
  | done => rfl
  | leaf heading v rest ih =>
    obtain ⟨hv, hrest⟩ := List.append_eq_nil_iff.mp h
    exact isSome_events_leaf (isSome_event hv _ _ _ _) (ih hrest _ _ _ _ _)
  | nested heading anchor inner rest ihi ihr =>
    obtain ⟨hinner, hrest⟩ := List.append_eq_nil_iff.mp h
    exact isSome_events_nested (ihi hinner _ _ _ _ _) (ihr hrest _ _ _ _ _)

/-- A value that is no alias has a node. -/
theorem exists_node {v : Leaf} (h : v.references = []) (k : Nat) (position : Position)
    (blanks : Nat) (seen : List String) (defined : List (Nat × Node)) :
    ∃ n, v.node m k position blanks seen defined = some n := by
  cases v with
  | text t | literal t => exact ⟨_, rfl⟩
  | reference name => cases h

/-- An outline without aliases has pairs. -/
theorem exists_pairs (h : o.references = []) (k line after : Nat) (seen : List String)
    (defined : List (Nat × Node)) : ∃ r, o.pairs m k line after seen defined = some r := by
  induction o generalizing k line after seen defined with
  | done => exact ⟨_, rfl⟩
  | leaf heading v rest ih =>
    obtain ⟨hv, hrest⟩ := List.append_eq_nil_iff.mp h
    obtain ⟨n, hn⟩ := exists_node (m := m) hv k (heading.valuePosition k line) (rest.gap after) seen
      defined
    obtain ⟨r, hr⟩ := ih hrest k (line + heading.height + 1 + v.height) after seen defined
    exact ⟨_, by rw [pairs, hn, Option.bind_some, hr, Option.bind_some]⟩
  | nested heading anchor inner rest ihi ihr =>
    obtain ⟨hinner, hrest⟩ := List.append_eq_nil_iff.mp h
    obtain ⟨r, hr⟩ := ihi hinner (k + 2) (line + heading.height + 1) (rest.gap after)
      (anchor.toList ++ seen) defined
    obtain ⟨r', hr'⟩ := ihr hrest k (line + heading.height + 1 + inner.height) after
      (seenBehind seen anchor inner) (define r.2 (anchorNumber seen anchor)
        (inner.mapping (k + 2) (line + heading.height + 1) anchor r.1))
    exact ⟨_, by rw [pairs, hr, Option.bind_some, hr', Option.bind_some]⟩

/-- Behind the pairs of an outline are those of what is behind it. -/
theorem pairs_append (h : before.references = []) (k line after : Nat) (seen : List String)
    (defined : List (Nat × Node)) :
    ∃ front seen' defined', (before.append o).pairs m k line after seen defined =
      (o.pairs m k (line + before.height) after seen' defined').map
        fun r => (front ++ r.1, r.2) := by
  induction before generalizing line seen defined with
  | done => exact ⟨[], seen, defined, by simp [append, height]⟩
  | leaf heading v rest ih =>
    obtain ⟨hv, hrest⟩ := List.append_eq_nil_iff.mp h
    obtain ⟨n, hn⟩ := exists_node (m := m) hv k (heading.valuePosition k line)
      ((rest.append o).gap after) seen defined
    obtain ⟨front, seen', defined', hpairs⟩ := ih hrest
      (line + heading.height + 1 + v.height) seen defined
    refine ⟨(heading.node m k line, n) :: front, seen', defined', ?_⟩
    rw [append, pairs, hn, Option.bind_some, hpairs, Option.bind_map, Option.map_eq_bind, height,
      ← Nat.add_assoc, ← Nat.add_assoc, ← Nat.add_assoc]
    rfl
  | nested heading anchor inner rest _ ih =>
    obtain ⟨hinner, hrest⟩ := List.append_eq_nil_iff.mp h
    obtain ⟨r, hr⟩ := exists_pairs (m := m) hinner (k + 2) (line + heading.height + 1)
      ((rest.append o).gap after) (anchor.toList ++ seen) defined
    obtain ⟨front, seen', defined', hpairs⟩ := ih hrest
      (line + heading.height + 1 + inner.height) (seenBehind seen anchor inner)
      (define r.2 (anchorNumber seen anchor)
        (inner.mapping (k + 2) (line + heading.height + 1) anchor r.1))
    refine ⟨(heading.node m k line, inner.mapping (k + 2) (line + heading.height + 1) anchor r.1) ::
      front, seen', defined', ?_⟩
    rw [append, pairs, hr, Option.bind_some, hpairs, Option.bind_map, Option.map_eq_bind, height,
      ← Nat.add_assoc, ← Nat.add_assoc, ← Nat.add_assoc]
    rfl

/-- The tokens of an outline are among those of it behind another. -/
theorem mem_tokens_append {t : Token} {k line after : Nat}
    (h : ∀ closing starts, t ∈ o.tokens k (line + before.height) closing starts after)
    (closing : Nat) (starts : Bool) : t ∈ (before.append o).tokens k line closing starts after := by
  induction before generalizing line closing starts with
  | done => exact h closing starts
  | leaf heading v rest ih =>
    rw [append, tokens]
    refine List.mem_append_right _ (List.mem_cons_of_mem _ (ih (fun closing starts => ?_) 0 false))
    have hmem := h closing starts
    rwa [height, ← Nat.add_assoc, ← Nat.add_assoc, ← Nat.add_assoc] at hmem
  | nested heading anchor inner rest _ ih =>
    rw [append, tokens]
    refine List.mem_append_right _ (List.mem_append_right _ (List.mem_append_right _
      (ih (fun closing starts => ?_) _ false)))
    have hmem := h closing starts
    rwa [height, ← Nat.add_assoc, ← Nat.add_assoc, ← Nat.add_assoc] at hmem

end Outline

/-! ## Values inside mappings -/

/-- A single pair counts under its key. -/
theorem lastUnder_single {key : String} {p : Node × Node} (h : p.1.text = key) :
    lastUnder key [p] = some p := by
  rw [lastUnder_cons, if_pos h]
  rfl

/-- Pairs in front do not change which pair counts under a key. -/
theorem lastUnder_append {key : String} {pairs : List (Node × Node)} {p : Node × Node}
    (h : lastUnder key pairs = some p) (front : List (Node × Node)) :
    lastUnder key (front ++ pairs) = some p := by
  unfold lastUnder pairsUnder at h ⊢
  rw [List.filter_append, List.getLast?_append, h, Option.some_or]

/-- The value that keys lead to, one mapping inside the other. -/
def Node.valueAt? : List String → Node → Option Node
  | [], n => some n
  | key :: keys, n => (lastUnder key n.members).bind fun p => p.2.valueAt? keys

/-- The keys lead on from the pair that counts under the first. -/
theorem Node.valueAt?_mapping {key : String} {keys : List String} {pairs : List (Node × Node)}
    {p : Node × Node} (h : lastUnder key pairs = some p) (info : NodeInfo) :
    (Node.mapping info pairs).valueAt? (key :: keys) = p.2.valueAt? keys := by
  show (lastUnder key pairs).bind _ = _
  rw [h, Option.bind_some]

/-- Where SQL stands at the end of a document. -/
inductive Nesting where
  /-- Behind other pairs of a mapping. -/
  | innermost (before : Outline)
  /-- In a mapping, which is a value with an anchor or without behind other pairs. -/
  | inside (before : Outline) (heading : Heading) (anchor : Option String) (nesting : Nesting)

namespace Nesting

/-- The keys that lead to the SQL. -/
def keys : Nesting → List String
  | innermost _ => ["sql"]
  | inside _ heading _ nesting => heading.key :: nesting.keys

/-- The document from an indentation on. -/
def document (s : Sql) (indent : Nat) : Nesting → String
  | innermost before =>
    before.text indent ++ (spaces indent ++ "sql: " ++ s.toYaml (indent + 2) ++ "\n")
  | inside before heading anchor nesting =>
    before.text indent ++ (String.ofList (unlines (heading.lines indent (anchorText anchor))) ++
      nesting.document s (indent + 2))

/-- What the surroundings of SQL need to be read: their outlines can be, and hold no aliases. -/
def Legible (indent : Nat) : Nesting → Prop
  | innermost before => before.Legible indent ∧ before.references = []
  | inside before heading anchor nesting =>
    (before.Legible indent ∧ before.references = []) ∧ heading.Legible indent ∧
      (∀ name ∈ anchor, IsName name) ∧ nesting.Legible (indent + 2)

/-- The lines of the document above that of the SQL. -/
def above (indent : Nat) : Nesting → List (List Char)
  | innermost before => before.lines indent
  | inside before heading anchor nesting =>
    before.lines indent ++ (heading.lines indent (anchorText anchor) ++ nesting.above (indent + 2))

/-- The indentation of the key of the SQL. -/
def depth (indent : Nat) : Nesting → Nat
  | innermost _ => indent
  | inside _ _ _ nesting => nesting.depth (indent + 2)

/-- The place of the SQL behind its key, the document starting on a line. -/
def place (indent line : Nat) (nesting : Nesting) : Position :=
  ⟨line + (nesting.above indent).length, nesting.depth indent + 6⟩

theorem valuePosition_sql (k line : Nat) :
    Heading.valuePosition ⟨0, .empty, "sql"⟩ k line = ⟨line, k + 6⟩ := by
  have hsql : (Heading.mk 0 .empty "sql").written.length = 3 := by decide
  rw [Heading.valuePosition, hsql]
  rfl

/-- Behind other pairs the SQL is on the line behind them. -/
theorem place_innermost (before : Outline) (indent line : Nat) :
    (innermost before).place indent line = ⟨line + before.height, indent + 6⟩ := by
  rw [place, above, Outline.length_lines, depth]

/-- In a mapping it is where it is from the line behind the heading on. -/
theorem place_inside (before : Outline) (heading : Heading) (anchor : Option String)
    (nesting : Nesting) (indent line : Nat) :
    (inside before heading anchor nesting).place indent line =
      nesting.place (indent + 2) (line + before.height + heading.height + 1) := by
  rw [place, place, above, depth, List.length_append, List.length_append, Outline.length_lines,
    Heading.lines, List.length_append, Heading.length_above, List.length_singleton]
  simp only [Nat.add_assoc]

/-- The outline of the document. -/
def outline (s : Sql) : Nesting → Outline
  | innermost before => before.append (.leaf ⟨0, .empty, "sql"⟩ (Outline.ofSql s) .done)
  | inside before heading anchor nesting =>
    before.append (.nested heading anchor (nesting.outline s) .done)

variable {m : Margin} {s : Sql} {nesting : Nesting} {indent : Nat}

/-- The document is that of its outline. -/
theorem toList_document (s : Sql) (nesting : Nesting) (indent : Nat) :
    (nesting.document s indent).toList = unlines ((nesting.outline s).lines indent) := by
  induction nesting generalizing indent with
  | innermost before =>
    have hsql : Canonical.scalar "sql" = "sql" := by decide
    have hyaml := Outline.toList_toYaml s (indent + 2) []
    rw [List.append_nil, List.cons_append] at hyaml
    rw [document, outline, Outline.lines_append, Text.unlines_append, Outline.lines, Outline.lines,
      Heading.lines, Heading.above, Heading.written, hsql]
    simp [Outline.text, Comment.empty, ← hyaml]
  | inside before heading anchor nesting ih =>
    rw [document, outline, Outline.lines_append, Text.unlines_append, Outline.lines, Outline.lines,
      String.toList_append, String.toList_append, ih]
    simp [Outline.text]

/-- An outline of SQL has a pair. -/
theorem outline_ne_done : nesting.outline s ≠ .done := by
  cases nesting with
  | innermost before | inside before => cases before <;> nofun

/-- SQL is no alias. -/
theorem references_ofSql (s : Sql) : (Outline.ofSql s).references = [] := by
  unfold Outline.ofSql
  cases s.style <;> rfl

theorem references_outline (h : nesting.Legible indent) : (nesting.outline s).references = [] := by
  induction nesting generalizing indent with
  | innermost before =>
    rw [outline, Outline.references_append, h.2, Outline.references, references_ofSql]
    rfl
  | inside before heading anchor nesting ih =>
    rw [outline, Outline.references_append, h.1.2, Outline.references, ih h.2.2.2]
    rfl

theorem legible_outline (h : nesting.Legible indent) (hs : (Outline.ofSql s).Legible) :
    (nesting.outline s).Legible indent := by
  induction nesting generalizing indent with
  | innermost before => exact h.1.append ⟨⟨nofun, by decide +kernel, fun _ => by decide⟩, hs, trivial⟩
  | inside before heading anchor nesting ih =>
    obtain ⟨⟨hbefore, -⟩, hheading, hanchor, hnesting⟩ := h
    exact hbefore.append ⟨hheading, hanchor, outline_ne_done, ih hnesting, trivial⟩

/-- The lines of the document are those above the SQL, its own and those of its block. -/
theorem lines_outline (s : Sql) (nesting : Nesting) (indent : Nat) :
    (nesting.outline s).lines indent = nesting.above indent ++
      (List.replicate (nesting.depth indent) ' ' ++ ("sql:".toList ++ (Outline.ofSql s).inline)) ::
        (Outline.ofSql s).lines (nesting.depth indent + 2) := by
  induction nesting generalizing indent with
  | innermost before =>
    have hsql : Canonical.scalar "sql" = "sql" := by decide
    rw [outline, Outline.lines_append, above, depth, Outline.lines, Outline.lines, Heading.lines,
      Heading.above, Heading.written, hsql]
    simp [Comment.empty]
  | inside before heading anchor nesting ih =>
    rw [outline, Outline.lines_append, above, depth, Outline.lines, Outline.lines, ih,
      List.append_nil, List.append_assoc, List.append_assoc]

/-- The token of the SQL is among those of the document. -/
theorem mem_tokens_outline (s : Sql) (nesting : Nesting) (indent line closing : Nat)
    (starts : Bool) :
    (Outline.ofSql s).token (nesting.depth indent) (nesting.place indent line) 0 ∈
      (nesting.outline s).tokens indent line closing starts 0 := by
  induction nesting generalizing indent line closing starts with
  | innermost before =>
    refine Outline.mem_tokens_append (fun closing starts => ?_) closing starts
    rw [Outline.tokens, valuePosition_sql, place_innermost]
    exact List.mem_append_right _ List.mem_cons_self
  | inside before heading anchor nesting ih =>
    refine Outline.mem_tokens_append (fun closing starts => ?_) closing starts
    rw [Outline.tokens, place_inside]
    exact List.mem_append_right _ (List.mem_append_right _ (List.mem_append_left _
      (ih (indent + 2) _ 0 true)))

/-- The pairs of the outline lead to the node of the SQL. -/
theorem exists_valueAt? (h : nesting.Legible indent) (line : Nat) (seen : List String)
    (defined : List (Nat × Node)) :
    ∃ r, (nesting.outline s).pairs m indent line 0 seen defined = some r ∧
      ∀ info, ∃ value seen' defined',
        (Node.mapping info r.1).valueAt? nesting.keys = some value ∧
        (Outline.ofSql s).node m (nesting.depth indent) (nesting.place indent line) 0 seen' defined' =
          some value := by
  induction nesting generalizing indent line seen defined with
  | innermost before =>
    obtain ⟨front, seen', defined', hpairs⟩ := Outline.pairs_append (m := m)
      (o := .leaf ⟨0, .empty, "sql"⟩ (Outline.ofSql s) .done) h.2 indent line 0 seen defined
    obtain ⟨value, hvalue⟩ := Outline.exists_node (m := m) (references_ofSql s) indent
      ((innermost before).place indent line) 0 seen' defined'
    rw [Outline.pairs, Outline.gap, valuePosition_sql, ← place_innermost, hvalue] at hpairs
    refine ⟨_, hpairs, fun info => ⟨value, seen', defined', ?_, hvalue⟩⟩
    rw [keys, Node.valueAt?_mapping (lastUnder_append (lastUnder_single (Heading.text_node ..)) _)]
    rfl
  | inside before heading anchor nesting ih =>
    obtain ⟨front, seen', defined', hpairs⟩ := Outline.pairs_append (m := m)
      (o := .nested heading anchor (nesting.outline s) .done) h.1.2 indent line 0 seen defined
    obtain ⟨r, hr, hvalue⟩ := ih h.2.2.2 (line + before.height + heading.height + 1)
      (anchor.toList ++ seen') defined'
    obtain ⟨value, seen'', defined'', hvalue, hnode⟩ := hvalue
      { position := (nesting.outline s).colon (indent + 2) (line + before.height + heading.height + 1)
        anchor }
    rw [Outline.pairs, Outline.gap, hr] at hpairs
    refine ⟨_, hpairs, fun info => ⟨value, seen'', defined'', ?_, ?_⟩⟩
    · rw [keys, Node.valueAt?_mapping (lastUnder_append (lastUnder_single (Heading.text_node ..)) _)]
      exact hvalue
    · rw [place_inside]
      exact hnode

end Nesting

end QueryBook
