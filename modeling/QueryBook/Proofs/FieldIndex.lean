import QueryBook.Proofs.NameIndex

/-!
# The index of a block

A block of fields grows by pushes; one whose name is taken fails and leaves the block. A block can
be kept with an index from names to places, where a push changes two things, and a name is looked up
without a search and without a look at the bounds. After any pushes in a row the index is in step
with the fields, so that the two kinds of block answer alike: the fields are those accepted, in
order, and each is found under its name.
-/

namespace QueryBook

/-! ## Pushes in a row -/

/-- The answers to pushes in a row, and what they leave. -/
def pushAll {σ : Type} (push : Field → StateM σ (Except SchemaError Unit)) :
    List Field → σ → List (Except SchemaError Unit) × σ
  | [], s => ([], s)
  | f :: fs, s =>
    ((push f s).1 :: (pushAll push fs (push f s).2).1, (pushAll push fs (push f s).2).2)

/-- The fields whose push is answered with success. -/
def accepted (fs : List Field) (answers : List (Except SchemaError Unit)) : List Field :=
  ((fs.zip answers).filter (·.2.isOk)).map (·.1)

/-- Pushes a field into a block, which stays as it was if that fails. -/
def Fields.pushInto (f : Field) : StateM Fields (Except SchemaError Unit) := fun fs =>
  match fs.push f with
  | .ok fs' => (.ok (), fs')
  | .error e => (.error e, fs)

instance : Inhabited Field := ⟨{ name := "", type := "" }⟩

/-- A block with an index: at which place the field of a name is. -/
structure IndexedFields where
  fields : Array Field := #[]
  index : Std.HashMap String Nat := ∅

namespace IndexedFields

/-- Pushes a field, unless its name is in the index: first into the index, then behind the
fields. -/
def push (f : Field) : StateM IndexedFields (Except SchemaError Unit) := do
  if (← get).index.contains f.name then
    return .error { problem := .fieldRedefined f.name, position := f.position }
  modify fun t => { t with index := t.index.insert f.name t.fields.size }
  modify fun t => { t with fields := t.fields.push f }
  return .ok ()

/-- The field of a name, at the place that the index gives. -/
def get? (t : IndexedFields) (name : String) : Option Field :=
  t.index[name]?.map fun place => t.fields[place]!

end IndexedFields

/-! ## Blocks of distinct names -/

namespace Fields

variable {fs : Fields} {f : Field} {e : SchemaError}

/-- What a block does whose fields have distinct names. -/
structure IsKeyed (fs : Fields) : Prop where
  distinct : (fs.list.map (·.name)).Nodup
  /-- Each field is found under its name, and nothing under another name. -/
  found : ∀ name f, fs.get? name = some f ↔ f ∈ fs.list ∧ f.name = name
  /-- A push fails exactly if the name is taken. -/
  refuses : ∀ f, (∃ e, fs.push f = .error e) ↔ f.name ∈ fs.list.map (·.name)
  /-- The failure is that the name is redefined, at the field; the block stays as it was. -/
  refusal : ∀ f e, fs.push f = .error e → e.problem = .fieldRedefined f.name ∧
    e.problem.kind = .redefined ∧ e.position = f.position ∧ pushInto f fs = (.error e, fs)

/-- A push fails exactly if the name is taken, which is then reported at the field. -/
theorem push_eq_error : fs.push f = .error e ↔ f.name ∈ fs.list.map (·.name) ∧
    e = { problem := .fieldRedefined f.name, position := f.position } := by
  have hget : (fs.get? f.name).isSome = true ↔ f.name ∈ fs.list.map (·.name) := by
    simp [get?, List.find?_isSome]
  unfold push
  split
  · next hsome =>
    rw [Except.error.injEq]
    exact ⟨fun h => ⟨hget.mp hsome, h.symm⟩, fun h => h.2.symm⟩
  · next hfree =>
    simp only [reduceCtorEq, false_iff]
    exact fun h => hfree (hget.mpr h.1)

theorem isKeyed_of_nodup (h : (fs.list.map (·.name)).Nodup) : fs.IsKeyed where
  distinct := h
  found _ _ := find?_name_eq_some_iff h
  refuses f := by simp [push_eq_error]
  refusal f e he := by
    obtain ⟨-, rfl⟩ := push_eq_error.mp he
    exact ⟨rfl, rfl, rfl, by rw [pushInto, he]⟩

/-- What one push does: it takes in a field of a new name, and fails otherwise. -/
theorem cases_pushInto (fs : Fields) (f : Field) :
    (f.name ∉ fs.list.map (·.name) ∧
        pushInto f fs = (.ok (), { fs with list := fs.list ++ [f] })) ∨
      (f.name ∈ fs.list.map (·.name) ∧
        pushInto f fs =
          (.error { problem := .fieldRedefined f.name, position := f.position }, fs)) := by
  by_cases hname : f.name ∈ fs.list.map (·.name)
  · exact .inr ⟨hname, by rw [pushInto, push_eq_error.mpr ⟨hname, rfl⟩]⟩
  · exact .inl ⟨hname, by rw [pushInto, Grammar.push_eq_ok.mpr ⟨hname, rfl⟩]⟩

/-- Pushes in a row put the accepted fields behind those that are there, under distinct names. -/
theorem pushAll_pushInto (steps : List Field) (h : (fs.list.map (·.name)).Nodup) :
    (pushAll pushInto steps fs).2 =
        { fs with list := fs.list ++ accepted steps (pushAll pushInto steps fs).1 } ∧
      (((pushAll pushInto steps fs).2.list.map (·.name)).Nodup) := by
  induction steps generalizing fs with
  | nil => exact ⟨by simp [pushAll, accepted], h⟩
  | cons f steps ih =>
    rw [pushAll]
    obtain ⟨hname, hpush⟩ | ⟨-, hpush⟩ := cases_pushInto fs f
    · rw [hpush]
      have hnext : (({ fs with list := fs.list ++ [f] } : Fields).list.map (·.name)).Nodup :=
        nodup_map_append h hname
      obtain ⟨hlast, hnodup⟩ := ih hnext
      refine ⟨?_, hnodup⟩
      rw [hlast]
      simp [accepted, Except.isOk, Except.toBool]
    · rw [hpush]
      obtain ⟨hlast, hnodup⟩ := ih h
      refine ⟨?_, hnodup⟩
      rw [hlast]
      simp [accepted, Except.isOk, Except.toBool]

end Fields

/-! ## The index -/

namespace IndexedFields

variable {t : IndexedFields} {fs : Fields} {f : Field} {name : String}

/-- Whether the index gives a place for a name exactly if there is a field that has it. -/
def Placed (t : IndexedFields) : Prop :=
  ∀ name place, t.index[name]? = some place ↔ t.fields[place]?.map Field.name = some name

/-- A block with an index that is in step, and the block without the index. -/
structure IsIndexOf (t : IndexedFields) (fs : Fields) : Prop where
  fields : t.fields.toList = fs.list
  places : t.Placed
  /-- What is looked up is what a search finds. -/
  get : ∀ name, t.get? name = fs.get? name
  /-- A push that fails leaves fields and index as they were. -/
  refusal : ∀ f e, (push f t).1 = .error e → (push f t).2 = t

/-- A push as a change of state: it fails without a change, or changes the index and the fields. -/
theorem push_eq (f : Field) (t : IndexedFields) :
    push f t =
      if f.name ∈ t.index then
        (.error { problem := .fieldRedefined f.name, position := f.position }, t)
      else (.ok (), ⟨t.fields.push f, t.index.insert f.name t.fields.size⟩) := by
  show (push f).run t = _
  unfold push
  by_cases h : f.name ∈ t.index
  · simp only [h, if_true]
    simp [h]
    rfl
  · simp [h]
    rfl

/-- A name is in the index exactly if a field has it. -/
theorem IsIndexOf.mem_index (h : t.IsIndexOf fs) :
    name ∈ t.index ↔ name ∈ fs.list.map (·.name) := by
  have hplaces : Places Field.name t.fields t.index := h.places
  rw [hplaces.mem_iff, h.fields]

/-- A block whose fields and places fit is an index: the rest follows. -/
theorem isIndexOf_of_places (hfields : t.fields.toList = fs.list)
    (hdistinct : (fs.list.map (·.name)).Nodup) (hplaces : t.Placed) : t.IsIndexOf fs where
  fields := hfields
  places := hplaces
  get name := by
    have hlookup : Places Field.name t.fields t.index := hplaces
    rw [get?, hlookup.lookup (hfields ▸ hdistinct), hfields]
    rfl
  refusal f e he := by
    rw [push_eq] at he ⊢
    split at he
    · next hname => rw [if_pos hname]
    · cases he

/-- The index of no fields. -/
theorem isIndexOf_empty (h : fs.list = []) : IsIndexOf {} fs := by
  exact isIndexOf_of_places h.symm (by simp [h]) places_empty

/-- One push into both kinds of block: the answers are the same, and the index stays in step. -/
theorem IsIndexOf.push (h : t.IsIndexOf fs) (hdistinct : (fs.list.map (·.name)).Nodup) (f : Field) :
    (IndexedFields.push f t).1 = (Fields.pushInto f fs).1 ∧
      (IndexedFields.push f t).2.IsIndexOf (Fields.pushInto f fs).2 := by
  obtain ⟨hname, hpush⟩ | ⟨hname, hpush⟩ := Fields.cases_pushInto fs f
  · have hfree : f.name ∉ t.index := fun hmem => hname (h.mem_index.mp hmem)
    rw [hpush, push_eq, if_neg hfree]
    refine ⟨rfl, isIndexOf_of_places ?_ (nodup_map_append hdistinct hname) ?_⟩
    · simp [h.fields]
    · exact Places.push h.places hfree
  · rw [hpush, push_eq, if_pos (h.mem_index.mpr hname)]
    exact ⟨rfl, h⟩

/-- Pushes in a row into both kinds of block. -/
theorem IsIndexOf.pushAll (h : t.IsIndexOf fs) (hdistinct : (fs.list.map (·.name)).Nodup)
    (steps : List Field) :
    (QueryBook.pushAll IndexedFields.push steps t).1 =
        (QueryBook.pushAll Fields.pushInto steps fs).1 ∧
      (QueryBook.pushAll IndexedFields.push steps t).2.IsIndexOf
        (QueryBook.pushAll Fields.pushInto steps fs).2 := by
  induction steps generalizing t fs with
  | nil => exact ⟨rfl, h⟩
  | cons f steps ih =>
    obtain ⟨hanswer, hstep⟩ := h.push hdistinct f
    have hnext := (Fields.pushAll_pushInto [f] hdistinct).2
    obtain ⟨hanswers, hlast⟩ := ih hstep hnext
    exact ⟨List.cons_eq_cons.mpr ⟨hanswer, hanswers⟩, hlast⟩

end IndexedFields

/-! ## The block behind any pushes -/

/-- **Fields and index in step.** Pushes in a row into an empty block are answered alike whether the
block has an index or not. Behind them its fields are the accepted ones in order, with distinct
names; each is found under its name and nothing under another; the next push fails exactly if its
name is taken, at the position of the field pushed, and leaves the block; and the index gives the
place of each name, so that no lookup misses the fields. -/
theorem Fields.in_step_with_index (start : Fields) (hstart : start.isEmpty = true)
    (steps : List Field) :
    ∃ answers block indexed,
      pushAll Fields.pushInto steps start = (answers, block) ∧
      pushAll IndexedFields.push steps {} = (answers, indexed) ∧
      block = { start with list := accepted steps answers } ∧ block.IsKeyed ∧
      indexed.IsIndexOf block := by
  have hlist : start.list = [] := List.isEmpty_iff.mp hstart
  have hdistinct : (start.list.map (·.name)).Nodup := by simp [hlist]
  obtain ⟨hblock, hnodup⟩ := Fields.pushAll_pushInto steps hdistinct
  obtain ⟨hanswers, hindex⟩ := (IndexedFields.isIndexOf_empty hlist).pushAll hdistinct steps
  refine ⟨_, _, _, rfl, Prod.ext hanswers rfl, ?_, Fields.isKeyed_of_nodup hnodup, hindex⟩
  rw [hblock, hlist, List.nil_append]

/-- Two fields, and one under the name of the first. -/
def repeatedName : List Field :=
  [{ name := "id", type := "int", position := ⟨2, 3⟩ },
    { name := "name", type := "string", position := ⟨3, 3⟩ },
    { name := "id", type := "string", position := ⟨4, 3⟩ }]

/-- The third of them is refused. -/
theorem Fields.in_step_behind_repeated_name :
    ({ anchor := some "User" } : Fields).isEmpty = true ∧
      (pushAll IndexedFields.push repeatedName {}).1 =
        [.ok (), .ok (), .error { problem := .fieldRedefined "id", position := ⟨4, 3⟩ }] ∧
      ∃ answers block indexed,
        pushAll Fields.pushInto repeatedName { anchor := some "User" } = (answers, block) ∧
        pushAll IndexedFields.push repeatedName {} = (answers, indexed) ∧
        block = { anchor := some "User", list := accepted repeatedName answers } ∧ block.IsKeyed ∧
        indexed.IsIndexOf block := by
  have hstep := Fields.in_step_with_index { anchor := some "User" } rfl repeatedName
  refine ⟨rfl, ?_, hstep⟩
  obtain ⟨answers, block, indexed, hplain, hindexed, -⟩ := hstep
  rw [hindexed]
  exact (congrArg Prod.fst hplain).symm

end QueryBook
