import QueryBook.Proofs.BuiltNodes
import QueryBook.Proofs.OutlineEvents

/-!
# The tree of an outline

The events of an outline build its tree: a mapping of its keys to scalars, mappings and aliases,
each alias with a copy of the mapping that its name stands for. Comments are left to the margin
here; what they are is a matter of the lines of the document.
-/

namespace QueryBook

open Yaml

/-! ## Nodes -/

/-- What a scalar or an alias at a position has, its comments found in a margin. -/
def Margin.info (m : Margin) (p : Position) : NodeInfo where
  position := p
  headComment := m.head p.line p.column
  lineComment := m.trailing p.line p.column

/-- The node of a key. -/
def Heading.node (m : Margin) (h : Heading) (k line : Nat) : Node :=
  .scalar (m.info (h.keyPosition k line)) h.key (.ofStyle (styleOf h.key))

/-- The node of a value, after the anchors seen so far, given the nodes that are complete. -/
def Leaf.node (m : Margin) (k : Nat) (position : Position) (blanks : Nat) (seen : List String)
    (defined : List (Nat × Node)) : Leaf → Option Node
  | text t => some (.scalar (m.info position) t (.ofStyle (styleOf t)))
  | literal t => some (.scalar (m.info (blockPosition t k position.line)) (read t blanks) .block)
  | reference name =>
    ((numbered seen).lookup name).bind fun number =>
      (defined.lookup number).map fun target => .reference (m.info position) target

namespace Outline

/-- The mapping of an outline. -/
def mapping (o : Outline) (k line : Nat) (anchor : Option String) (pairs : List (Node × Node)) : Node :=
  .mapping { position := o.colon k line, anchor } pairs

/-- The pairs of an outline after the anchors seen so far, given the nodes that are complete; and
those that are so behind it. -/
def pairs (m : Margin) (k line after : Nat) (seen : List String) (defined : List (Nat × Node)) :
    Outline → Option (List (Node × Node) × List (Nat × Node))
  | done => some ([], defined)
  | leaf h v rest =>
    (v.node m k (h.valuePosition k line) (rest.gap after) seen defined).bind fun n =>
      (rest.pairs m k (line + h.height + 1 + v.height) after seen defined).bind fun r =>
        some ((h.node m k line, n) :: r.1, r.2)
  | nested h anchor inner rest =>
    (inner.pairs m (k + 2) (line + h.height + 1) (rest.gap after) (anchor.toList ++ seen)
        defined).bind fun r =>
      (rest.pairs m k (line + h.height + 1 + inner.height) after (seenBehind seen anchor inner)
          (define r.2 (anchorNumber seen anchor)
            (inner.mapping (k + 2) (line + h.height + 1) anchor r.1))).bind fun r' =>
        some ((h.node m k line, inner.mapping (k + 2) (line + h.height + 1) anchor r.1) :: r'.1, r'.2)

end Outline

/-! ## Building -/

namespace TreeBuilder

variable {names : List String} {m : Margin} {defined : List (Nat × Node)} {position : Position}
  {anchor : Option Nat} {ps : List (Node × Node)} {outer : List OpenNode} {root : Option Node}

/-- The state after events, if they can be taken in. -/
def steps? (b : TreeBuilder) (es : List Event) : Option TreeBuilder := (b.steps es).toOption

theorem steps?_cons (b : TreeBuilder) (e : Event) (es : List Event) :
    b.steps? (e :: es) = (b.step e).toOption.bind (·.steps? es) := by
  rw [steps?, steps_cons]
  cases b.step e <;> rfl

theorem steps?_append (b : TreeBuilder) (es es' : List Event) :
    b.steps? (es ++ es') = (b.steps? es).bind (·.steps? es') := by
  rw [steps?, steps?, steps_append]
  cases b.steps es <;> rfl

/-- A key waits for its value. -/
theorem steps?_key (h : Heading) (k line : Nat) (es : List Event) :
    steps? ⟨names, m, defined, .mapping position anchor ps none :: outer, root⟩
        (h.event k line :: es) =
      steps? ⟨names, m, defined,
        .mapping position anchor ps (some (h.node m k line)) :: outer, root⟩ es := by
  rw [steps?_cons]
  rfl

/-- A value joins its key. -/
theorem step_leaf (v : Leaf) (k blanks : Nat) (at' : Position) (seen : List String) (key : Node) :
    ((v.event k at' blanks seen).bind fun e =>
        (step ⟨names, m, defined, .mapping position anchor ps (some key) :: outer, root⟩
          e).toOption) =
      (v.node m k at' blanks seen defined).map fun n =>
        ⟨names, m, defined, .mapping position anchor ((key, n) :: ps) none :: outer, root⟩ := by
  cases v with
  | text t => rfl
  | literal t => rfl
  | reference name =>
    rw [Leaf.event, Leaf.node]
    cases (numbered seen).lookup name with
    | none => rfl
    | some number =>
      rw [Option.map_some, Option.bind_some, Option.bind_some, step]
      dsimp only
      cases defined.lookup number <;> rfl

/-- A mapping is opened. -/
theorem steps?_mappingStart (number : Option Nat) (at' : Position) (es : List Event) :
    steps? ⟨names, m, defined, outer, root⟩ (⟨.mappingStart number, at'⟩ :: es) =
      steps? ⟨names, m, defined, .mapping at' number [] none :: outer, root⟩ es := by
  rw [steps?_cons]
  rfl

/-- The name of the anchor that comes after those seen so far. -/
theorem anchorName?_anchorNumber (name : Option String) {seen later : List String}
    (hnames : names = seen.reverse ++ (name.toList ++ later)) :
    anchorName? ⟨names, m, defined, outer, root⟩ (anchorNumber seen name) = name := by
  cases name with
  | none => rfl
  | some name => simp [hnames, anchorName?, anchorNumber]

/-- A mapping that is complete joins its key, and its anchor stands for it. -/
theorem steps?_mappingEnd (name : Option String) {seen later : List String}
    (hnames : names = seen.reverse ++ (name.toList ++ later)) (at' at'' : Position)
    (ps' : List (Node × Node)) (key : Node) (es : List Event) :
    steps? ⟨names, m, defined, .mapping at' (anchorNumber seen name) ps' none ::
        .mapping position anchor ps (some key) :: outer, root⟩ (⟨.mappingEnd, at''⟩ :: es) =
      steps? ⟨names, m,
        define defined (anchorNumber seen name)
          (.mapping { position := at', anchor := name } ps'.reverse),
        .mapping position anchor
          ((key, .mapping { position := at', anchor := name } ps'.reverse) :: ps) none :: outer,
        root⟩ es := by
  rw [steps?_cons, step]
  dsimp only
  rw [uncommented, anchorName?_anchorNumber name hnames]
  cases name <;> rfl

/-- A pair with a scalar or an alias joins the innermost mapping, and the rest follows. -/
theorem steps?_leaf (h : Heading) (v : Leaf) (rest : Outline) (k line after : Nat) (next : Position)
    (seen : List String) :
    (((Outline.leaf h v rest).events k line next after seen).bind
        (steps? ⟨names, m, defined, .mapping position anchor ps none :: outer, root⟩)) =
      (v.node m k (h.valuePosition k line) (rest.gap after) seen defined).bind fun n =>
        (rest.events k (line + h.height + 1 + v.height) next after seen).bind
          (steps? ⟨names, m, defined,
            .mapping position anchor ((h.node m k line, n) :: ps) none :: outer, root⟩) := by
  calc
    _ = (v.event k (h.valuePosition k line) (rest.gap after) seen).bind fun e =>
          (rest.events k (line + h.height + 1 + v.height) next after seen).bind fun es =>
            (step ⟨names, m, defined,
              .mapping position anchor ps (some (h.node m k line)) :: outer, root⟩
                e).toOption.bind (·.steps? es) := by
      rw [Outline.events, Option.bind_assoc]
      simp only [Option.bind_assoc, Option.bind_some, steps?_key, ← steps?_cons]
    _ = ((v.node m k (h.valuePosition k line) (rest.gap after) seen defined).map fun n =>
          (⟨names, m, defined,
            .mapping position anchor ((h.node m k line, n) :: ps) none :: outer, root⟩ :
              TreeBuilder)).bind
          fun b => (rest.events k (line + h.height + 1 + v.height) next after seen).bind
            (b.steps? ·) := by
      rw [← step_leaf, Option.bind_assoc]
      simp only [Option.bind_comm (rest.events _ _ _ _ _)]
    _ = _ := Option.bind_map

/-- A pair with a mapping opens it; behind its events it is closed, and the rest follows. -/
theorem steps?_nested (h : Heading) (name : Option String) (inner rest : Outline)
    (k line after : Nat) (next : Position) (seen : List String) :
    (((Outline.nested h name inner rest).events k line next after seen).bind
        (steps? ⟨names, m, defined, .mapping position anchor ps none :: outer, root⟩)) =
      (inner.events (k + 2) (line + h.height + 1)
          (rest.start k (line + h.height + 1 + inner.height) next) (rest.gap after)
          (name.toList ++ seen)).bind fun es =>
        (rest.events k (line + h.height + 1 + inner.height) next after
            (Outline.seenBehind seen name inner)).bind fun es' =>
          (steps? ⟨names, m, defined,
            .mapping (inner.colon (k + 2) (line + h.height + 1)) (anchorNumber seen name) [] none ::
              .mapping position anchor ps (some (h.node m k line)) :: outer, root⟩ es).bind
            fun b => b.steps? (⟨.mappingEnd, rest.start k (line + h.height + 1 + inner.height)
              next⟩ :: es') := by
  rw [Outline.events, Option.bind_assoc]
  simp only [Option.bind_assoc, Option.bind_some, steps?_key, steps?_mappingStart, steps?_append]

/-- The events of an outline add its pairs to the innermost mapping. -/
theorem steps?_events (o : Outline) {k line after : Nat} {next : Position} {seen later : List String}
    (hnames : names = seen.reverse ++ (o.anchors ++ later)) :
    ((o.events k line next after seen).bind fun es =>
        steps? ⟨names, m, defined, .mapping position anchor ps none :: outer, root⟩ es) =
      (o.pairs m k line after seen defined).map fun r =>
        ⟨names, m, r.2, .mapping position anchor (r.1.reverse ++ ps) none :: outer, root⟩ := by
  induction o generalizing k line after next seen later defined position anchor ps outer with
  | done => rfl
  | leaf h v rest ih =>
    rw [steps?_leaf, Outline.pairs, Option.map_bind]
    congr 1
    funext n
    rw [Function.comp_apply, ih hnames]
    cases rest.pairs m k (line + h.height + 1 + v.height) after seen defined <;> simp
  | nested h name inner rest ihi ihr =>
    -- the anchors seen before the mapping, in it and behind it
    have hname : names = seen.reverse ++
        (name.toList ++ (inner.anchors ++ (rest.anchors ++ later))) := by
      rw [hnames, Outline.anchors]
      simp
    have hinner : names = (name.toList ++ seen).reverse ++
        (inner.anchors ++ (rest.anchors ++ later)) := by
      rw [hname]
      cases name <;> simp
    have hrest : names = (Outline.seenBehind seen name inner).reverse ++
        (rest.anchors ++ later) := by
      rw [hname, Outline.seenBehind]
      cases name <;> simp
    calc
      _ = (inner.pairs m (k + 2) (line + h.height + 1) (rest.gap after) (name.toList ++ seen)
            defined).bind fun r =>
          (rest.events k (line + h.height + 1 + inner.height) next after
              (Outline.seenBehind seen name inner)).bind fun es' =>
            steps? ⟨names, m, define r.2 (anchorNumber seen name)
                (inner.mapping (k + 2) (line + h.height + 1) name r.1),
              .mapping position anchor ((h.node m k line,
                inner.mapping (k + 2) (line + h.height + 1) name r.1) :: ps) none :: outer, root⟩
              es' := by
        rw [steps?_nested]
        simp only [← Option.bind_comm (Outline.events k _ _ _ _ rest)]
        congr 1
        funext es'
        rw [← Option.bind_assoc, ihi hinner, Option.bind_map]
        congr 1
        funext r
        rw [Function.comp_apply, List.append_nil, steps?_mappingEnd name hname, List.reverse_reverse]
        rfl
      _ = _ := by
        rw [Outline.pairs, Option.map_bind]
        congr 1
        funext r
        rw [ihr hrest, Function.comp_apply, Option.map_bind, Option.map_eq_bind]
        congr 1
        funext r'
        simp

end TreeBuilder

/-! ## The document -/

namespace Outline

open Text (unlines)

/-- The tokens of a key define no anchor. -/
theorem filterMap_anchorName?_heading (h : Heading) (k line closing : Nat) (starts : Bool) :
    (h.tokens k line closing starts).filterMap (·.anchorName?) = [] := by
  cases starts <;> simp [Heading.tokens, scalarToken, Token.anchorName?]

/-- The names of the anchors of an outline are those in its tokens. -/
theorem filterMap_anchorName?_tokens (o : Outline) (k line closing after : Nat) (starts : Bool) :
    (o.tokens k line closing starts after).filterMap (·.anchorName?) = o.anchors := by
  induction o generalizing k line closing starts after with
  | done => rfl
  | leaf h v rest ih =>
    have hvalue : (v.token k (h.valuePosition k line) (rest.gap after)).anchorName? = none := by
      cases v <;> rfl
    rw [tokens, List.filterMap_append, filterMap_anchorName?_heading,
      List.nil_append, List.filterMap_cons_none hvalue,
      ih, anchors]
  | nested h name inner rest ihi ihr =>
    have hname : (anchorTokens (h.valuePosition k line) name).filterMap (·.anchorName?) =
        name.toList := by
      cases name <;> rfl
    rw [tokens, List.filterMap_append, List.filterMap_append, List.filterMap_append,
      filterMap_anchorName?_heading, hname, ihi, ihr, anchors, List.nil_append]

/-- The margin of the document of an outline with its events. -/
def margin (o : Outline) (es : List Event) : Margin :=
  Document.marginOf (unlines (o.lines 0))
    (⟨.mappingStart none, o.colon 0 1⟩ :: (es ++ [⟨.mappingEnd, o.finish⟩]))

/-- The events of an outline are built to its mapping. -/
theorem toOption_ofEvents? (o : Outline) (m : Margin) {es : List Event}
    (he : o.events 0 1 o.finish 0 [] = some es) :
    (Node.ofEvents? o.anchors m
        (⟨.mappingStart none, o.colon 0 1⟩ :: (es ++ [⟨.mappingEnd, o.finish⟩]))).toOption =
      (o.pairs m 0 1 0 [] []).map fun r => o.mapping 0 1 none r.1 := by
  -- the events of the outline fill the mapping that is opened before and closed behind them
  have hsteps : TreeBuilder.steps? ⟨o.anchors, m, [], [], none⟩
      (⟨.mappingStart none, o.colon 0 1⟩ :: (es ++ [⟨.mappingEnd, o.finish⟩])) =
        (o.pairs m 0 1 0 [] []).map fun r =>
          ⟨o.anchors, m, r.2, [], some (o.mapping 0 1 none r.1)⟩ := by
    have hevents : (some es).bind (TreeBuilder.steps? ⟨o.anchors, m, [],
        [.mapping (o.colon 0 1) none [] none], none⟩) = _ :=
      he ▸ TreeBuilder.steps?_events o (List.append_nil o.anchors).symm
    rw [Option.bind_some] at hevents
    rw [TreeBuilder.steps?_mappingStart, TreeBuilder.steps?_append, hevents, Option.bind_map,
      Option.map_eq_bind]
    congr 1
    funext r
    rw [Function.comp_apply, List.append_nil, TreeBuilder.steps?_cons]
    show some (_ : TreeBuilder) = _
    rw [List.reverse_reverse]
    rfl
  rw [TreeBuilder.steps?] at hsteps
  rw [Node.ofEvents?]
  cases hb : TreeBuilder.steps ⟨o.anchors, m, [], [], none⟩
      (⟨.mappingStart none, o.colon 0 1⟩ :: (es ++ [⟨.mappingEnd, o.finish⟩])) with
  | error e =>
    rw [hb] at hsteps
    rw [Option.map_eq_none_iff.mp hsteps.symm]
    rfl
  | ok b =>
    rw [hb] at hsteps
    obtain ⟨r, hr, rfl⟩ := Option.map_eq_some_iff.mp hsteps.symm
    rw [hr]
    rfl

/-- The document of a legible outline is read to its mapping. -/
theorem read_lines [Diagnosis] {o : Outline} (ho : o.Legible 0) (hne : o ≠ done) {source : String}
    (hsource : source.toList = unlines (o.lines 0)) :
    (Document.read source).toOption =
      (o.events 0 1 o.finish 0 []).bind fun es =>
        (o.pairs (o.margin es) 0 1 0 [] []).map fun r => some (o.mapping 0 1 none r.1) := by
  have hnames : (Yaml.tokens (unlines (o.lines 0))).filterMap (·.anchorName?) = o.anchors := by
    rw [tokens_lines ho hne, List.filterMap_append, filterMap_anchorName?_tokens]
    simp [Token.anchorName?]
  rw [Document.read, hsource, events?_tokens ho hne, hnames]
  cases he : o.events 0 1 o.finish 0 [] with
  | none => rfl
  | some es =>
    rw [Option.map_some, Option.bind_some]
    show ((Node.ofEvents? _ _ _).map some).toOption = _
    rw [Reading.toOption_map, toOption_ofEvents? o _ he, Option.map_map]
    rfl

end Outline

end QueryBook
